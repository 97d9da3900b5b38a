/-
**Choices between several results.**

A choice is written in two ways.  A chain of conditions nests: each choice stands in the last alternative of
the one before it.  A switch compares one subject with several patterns, and its arguments come in pairs,
with one more for the case that no pattern matches.  Both compile to one `CASE`.

The inner choices of a chain are compiled first and merged into the outer ones.  What is kept from step to
step is that a chain adds its branches to any choice in whose last alternative it stands.  The arguments of a
switch are paired, their results unified with the last one, and paired again.  What is kept is the place: the
branch at a place has the pattern and the result of that place.

Main definitions:

* `ComputedFields.Formula.ifChain`, `ComputedFields.Formula.switch` — chains of conditions, and switches;
* `ComputedFields.Context.IsBranch` — the branch that a step of a chain is compiled to.

Main results:

* `ComputedFields.Context.compile_ifChain` — **a chain compiles to one choice**;
* `ComputedFields.Context.compile_switch` — **each branch of a switch has its own pattern and result**.
-/

import ComputedFields.Proofs.CommonTypes
import ComputedFields.Proofs.Expansion

set_option relaxedAutoImplicit false
set_option autoImplicit false

namespace ComputedFields

open Sql (Expr)

/-! ### Formulas and expressions -/

namespace Formula

/-- A choice between two formulas. -/
def ifElse (condition result otherwise : Formula) : Formula :=
  .call (.known (.logical .ifElse)) [condition, result, otherwise]

/-- A chain of choices, each in the last alternative of the one before it. -/
def ifChain : List (Formula × Formula) → Formula → Formula
  | [], last => last
  | (condition, result) :: rest, last => ifElse condition result (ifChain rest last)

/-- The choice of the first result whose pattern equals the subject. -/
def switch (subject : Formula) (pairs : List (Formula × Formula)) (default : Option Formula) : Formula :=
  .call (.known (.logical .switch)) (subject :: (pairs.flatMap fun p => [p.1, p.2]) ++ default.toList)

end Formula

/-- The expression is a choice. -/
def Sql.Expr.isCase : Expr → Bool
  | .case .. => true
  | _ => false

/-- A choice whose last alternative is no choice stays as it is. -/
theorem choice_of_isCase (branches : List (Expr × Expr)) {otherwise : Option Expr}
    (h : ∀ e ∈ otherwise, e.isCase = false) : choice branches otherwise = .case branches otherwise := by
  unfold choice
  split
  · next inner last => cases h (.case inner last) rfl
  · rfl

/-- What is unified is a choice only if it was one. -/
theorem Target.isCase_unifyTo (t : Target) (type : ValueType) {f : Fragment} (h : f.expr.isCase = false) :
    (t.unifyTo type f).expr.isCase = false := by
  cases type with
  | unknown => exact h
  | string =>
      simp only [unifyTo]
      split
      · exact h
      · next hother =>
          simp only [not_or] at hother
          cases htype : f.type <;> simp_all [text, Expr.isCase]
  | _ =>
      simp only [unifyTo]
      split
      · rfl
      · exact h

theorem Function.supported_logical (d : Dialect) (mode : Mode) (f : LogicalFunction) :
    Function.supported d mode (.logical f) = true := by
  cases mode with
  | generated => rfl
  | select => simp [Function.supported]

/-! ### Chains of conditions -/

/-- Two results that fit a type are chosen between as they are. -/
theorem LogicalFunction.chooseIf_of_fits (t : Target) (condition : Fragment) {result otherwise : Fragment}
    {type : ValueType} (htype : result.type = type) (hresult : result.Fits type)
    (hotherwise : otherwise.Fits type) :
    chooseIf t condition result (some otherwise) =
      ⟨choice [(Target.truthy condition, result.expr)] (some otherwise.expr), type, false⟩ := by
  have hcommon : commonType [result, otherwise] = type :=
    commonType_of_fits (by simp [hresult, hotherwise]) fun _ => ⟨result, List.mem_cons_self, htype⟩
  simp [chooseIf, hcommon, t.unifyTo_of_fits hresult, t.unifyTo_of_fits hotherwise]

namespace Context

section

variable {ctx : Context} {type : ValueType} {condition result otherwise : Formula} {cc cr co : Compiled}

theorem compile_ifElse (hcondition : ctx.compile condition = .ok cc) (hresult : ctx.compile result = .ok cr)
    (hotherwise : ctx.compile otherwise = .ok co) (htype : cr.fragment.type = type)
    (hfits : cr.fragment.Fits type) (hfits' : co.fragment.Fits type) :
    ∃ c, ctx.compile (.ifElse condition result otherwise) = .ok c ∧
      c.fragment = ⟨choice [(Target.truthy cc.fragment, cr.fragment.expr)] (some co.fragment.expr), type,
        false⟩ := by
  have hargs : Formula.compileAllWith ctx.target ctx.compileField [condition, result, otherwise] =
      .ok [cc, cr, co] :=
    Formula.compileAllWith_eq_ok_iff.2 (.cons hcondition (.cons hresult (.cons hotherwise .nil)))
  refine ⟨_, Formula.compileWith_call_eq_ok_iff.2 ⟨rfl, Function.supported_logical _ _ _, _, _, hargs, rfl,
    rfl⟩, ?_⟩
  exact LogicalFunction.chooseIf_of_fits _ _ htype hfits hfits'

/-- The branch that a step of a chain is compiled to: its condition, and its result as it is. -/
def IsBranch (ctx : Context) (step : Formula × Formula) (branch : Expr × Expr) : Prop :=
  ∃ condition result, ctx.compile step.1 = .ok condition ∧ ctx.compile step.2 = .ok result ∧
    branch = (Target.truthy condition.fragment, result.fragment.expr)

/-- The formula compiles to a value of the type that is not empty. -/
def Gives (ctx : Context) (type : ValueType) (f : Formula) : Prop :=
  ∃ c, ctx.compile f = .ok c ∧ c.fragment.type = type ∧ c.fragment.isBlank = false

variable {steps : List (Formula × Formula)} {d : Formula} {last : Compiled}

/-- **A chain in the last alternative of a choice adds its branches to that choice.**  The empty chain does
too, since the last result is no choice. -/
theorem compile_ifChain_merges
    (hsteps : ∀ step ∈ steps, (∃ c, ctx.compile step.1 = .ok c) ∧ ctx.Gives type step.2)
    (hlast : ctx.compile d = .ok last) (htype : last.fragment.type = type)
    (hfilled : last.fragment.isBlank = false) (hcase : last.fragment.expr.isCase = false) :
    ∃ c branches, ctx.compile (.ifChain steps d) = .ok c ∧ List.Forall₂ ctx.IsBranch steps branches ∧
      c.fragment.Fits type ∧
      (∀ others, choice others (some c.fragment.expr) =
        .case (others ++ branches) (some last.fragment.expr)) ∧
      (steps ≠ [] → c.fragment = ⟨.case branches (some last.fragment.expr), type, false⟩) := by
  induction steps with
  | nil =>
      refine ⟨last, [], hlast, .nil, ⟨.inl htype, fun _ _ => hfilled⟩, ?_, fun hne => absurd rfl hne⟩
      intro others
      rw [choice_of_isCase others (by simpa using hcase), List.append_nil]
  | cons step rest ih =>
      rw [List.forall_mem_cons] at hsteps
      obtain ⟨⟨⟨condition, hcondition⟩, result, hresult, hresultType, hresultFilled⟩, hrest⟩ := hsteps
      obtain ⟨otherwise, branches, hotherwise, hbranches, hfits, hmerges, -⟩ := ih hrest
      obtain ⟨c, hc, hfragment⟩ := compile_ifElse hcondition hresult hotherwise hresultType
        ⟨.inl hresultType, fun _ _ => hresultFilled⟩ hfits
      rw [hmerges, List.singleton_append] at hfragment
      refine ⟨c, _ :: branches, hc, .cons ⟨condition, result, hcondition, hresult, rfl⟩ hbranches, ?_, ?_,
        fun _ => hfragment⟩
      · rw [hfragment]
        exact ⟨.inl rfl, fun _ _ => rfl⟩
      · intro others
        rw [hfragment]
        rfl

/-- **A chain compiles to one choice**, with a branch for each step in the order of the steps, if all results
are of one type and not empty and the last one is no choice itself. -/
theorem compile_ifChain (hne : steps ≠ [])
    (hsteps : ∀ step ∈ steps, (∃ c, ctx.compile step.1 = .ok c) ∧ ctx.Gives type step.2)
    (hlast : ctx.compile d = .ok last) (htype : last.fragment.type = type)
    (hfilled : last.fragment.isBlank = false) (hcase : last.fragment.expr.isCase = false) :
    ∃ c branches, ctx.compile (.ifChain steps d) = .ok c ∧
      c.fragment = ⟨.case branches (some last.fragment.expr), type, false⟩ ∧
      branches.length = steps.length ∧ List.Forall₂ ctx.IsBranch steps branches := by
  obtain ⟨c, branches, hc, hbranches, -, -, hfragment⟩ :=
    compile_ifChain_merges hsteps hlast htype hfilled hcase
  exact ⟨c, branches, hc, hfragment hne, hbranches.length_eq.symm, hbranches⟩

end

end Context

namespace Sample

/-- A number that is large, and one that is not zero. -/
def sizes : List (Formula × Formula) :=
  [(.binary (.field "n1") .gt (.number "9"), .text "large"), (.field "n1", .field "s")]

end Sample

/-- Two conditions of different types, with a literal and a field for results. -/
theorem Context.compile_ifChain_sizes :
    ∃ c branches, Sample.totalsContext.compile (.ifChain Sample.sizes (.text "none")) = .ok c ∧
      c.fragment = ⟨.case branches (some (.text "none")), .string, false⟩ ∧ branches.length = 2 ∧
      List.Forall₂ Sample.totalsContext.IsBranch Sample.sizes branches := by
  have hsteps : ∀ step ∈ Sample.sizes, (∃ c, Sample.totalsContext.compile step.1 = .ok c) ∧
      Sample.totalsContext.Gives .string step.2 := by
    intro step hstep
    simp only [Sample.sizes, List.mem_cons, List.not_mem_nil, or_false] at hstep
    rcases hstep with rfl | rfl
    · exact ⟨⟨_, rfl⟩, _, rfl, rfl, rfl⟩
    · exact ⟨⟨_, rfl⟩, _, rfl, rfl, rfl⟩
  have hlast : Sample.totalsContext.compile (.text "none") = .ok ⟨.string (.text "none"), []⟩ := rfl
  exact compile_ifChain (List.cons_ne_nil _ _) hsteps hlast rfl rfl rfl

/-! ### Switches -/

namespace LogicalFunction

/-- Arguments that come in pairs are paired again. -/
theorem pairUp_flatMap (pairs : List (Fragment × Fragment)) (default : Option Fragment) :
    pairUp ((pairs.flatMap fun p => [p.1, p.2]) ++ default.toList) = (pairs, default) := by
  induction pairs with
  | nil => cases default <;> rfl
  | cons p rest ih => simp [pairUp, ih]

/-- The choice by patterns has a branch for each pair of arguments, and the last one of an odd number for its
last alternative. -/
theorem chooseEqual_flatMap (t : Target) (subject : Fragment) {pairs : List (Fragment × Fragment)}
    {default : Option Fragment} {type : ValueType}
    (htype : commonType (pairs.map Prod.snd ++ default.toList) = type)
    (hcase : ∀ f ∈ default, f.expr.isCase = false) :
    chooseEqual t subject ((pairs.flatMap fun p => [p.1, p.2]) ++ default.toList) =
      ⟨.case (pairs.map fun p => ((t.binary subject .eq p.1).expr, (t.unifyTo type p.2).expr))
        (default.map fun f => (t.unifyTo type f).expr), type, false⟩ := by
  have hlast : ∀ e ∈ default.map fun f => (t.unifyTo type f).expr, e.isCase = false := by
    intro e he
    obtain ⟨f, hf, rfl⟩ := Option.map_eq_some_iff.1 he
    exact t.isCase_unifyTo type (hcase f hf)
  simp only [chooseEqual, pairUp_flatMap, htype]
  rw [choice_of_isCase _ hlast]
  rfl

end LogicalFunction

namespace Context

variable {ctx : Context} {subject : Formula} {cs : Compiled} {pairs : List (Formula × Formula)}
  {parts : List (Compiled × Compiled)} {default : Option Formula} {last : Option Compiled}

/-- The arguments of a switch compile one by one. -/
theorem forall₂_switch
    (hpairs : List.Forall₂ (fun p c => ctx.compile p.1 = .ok c.1 ∧ ctx.compile p.2 = .ok c.2) pairs parts)
    (hdefault : Option.Rel (fun f c => ctx.compile f = .ok c) default last) :
    List.Forall₂ (fun f c => ctx.compile f = .ok c) ((pairs.flatMap fun p => [p.1, p.2]) ++ default.toList)
      ((parts.flatMap fun p => [p.1, p.2]) ++ last.toList) := by
  induction hpairs with
  | nil =>
      cases hdefault with
      | none => exact .nil
      | some h => exact .cons h .nil
  | cons h _ ih => exact .cons h.1 (.cons h.2 ih)

theorem exists_compile_switch (hne : pairs ≠ []) (hsubject : ctx.compile subject = .ok cs)
    (hpairs : List.Forall₂ (fun p c => ctx.compile p.1 = .ok c.1 ∧ ctx.compile p.2 = .ok c.2) pairs parts)
    (hdefault : Option.Rel (fun f c => ctx.compile f = .ok c) default last)
    (hcase : ∀ c ∈ last, c.fragment.expr.isCase = false) :
    let t := ctx.target
    let type := commonType (parts.map (fun p => p.2.fragment) ++ (last.map Compiled.fragment).toList)
    ∃ c, ctx.compile (.switch subject pairs default) = .ok c ∧
      c.fragment = ⟨.case
        (parts.map fun p => ((t.binary cs.fragment .eq p.1.fragment).expr, (t.unifyTo type p.2.fragment).expr))
        (last.map fun c => (t.unifyTo type c.fragment).expr), type, false⟩ := by
  intro t type
  have hargs := Formula.compileAllWith_eq_ok_iff.2
    (List.Forall₂.cons hsubject (forall₂_switch hpairs hdefault))
  have haccepts : Function.accepts (.logical .switch)
      (subject :: ((pairs.flatMap fun p => [p.1, p.2]) ++ default.toList)).length = true := by
    cases pairs with
    | nil => exact absurd rfl hne
    | cons p rest => simp [Function.accepts, Function.signature, LogicalFunction.signature, Signature.accepts]
  have hfragments : ((parts.flatMap fun p => [p.1, p.2]) ++ last.toList).map Compiled.fragment =
      ((parts.map fun p => (p.1.fragment, p.2.fragment)).flatMap fun p => [p.1, p.2]) ++
        (last.map Compiled.fragment).toList := by
    simp [List.map_flatMap, List.flatMap_map, Option.toList_map]
  have hcase' : ∀ f ∈ last.map Compiled.fragment, f.expr.isCase = false := by
    intro f hf
    obtain ⟨c, hc, rfl⟩ := Option.map_eq_some_iff.1 hf
    exact hcase c hc
  refine ⟨_, Formula.compileWith_call_eq_ok_iff.2 ⟨haccepts, Function.supported_logical _ _ _, _, _, hargs,
    rfl, rfl⟩, ?_⟩
  change LogicalFunction.chooseEqual t cs.fragment _ = _
  rw [List.map_cons, List.drop_one, List.tail_cons, hfragments,
    LogicalFunction.chooseEqual_flatMap t cs.fragment (by rw [List.map_map]) hcase', List.map_map,
    Option.map_map]
  rfl

/-- **Each branch of a switch has its own pattern and result.**  A switch over any number of pairs compiles
to one choice with a branch for each pair.  The branch at a place asks whether the subject equals the pattern
of that place, and gives the result of that place among the unified results.  The choice has a last
alternative exactly when the switch has one, which is then the last of the unified results. -/
theorem compile_switch (hne : pairs ≠ []) (hsubject : ctx.compile subject = .ok cs)
    (hpairs : List.Forall₂ (fun p c => ctx.compile p.1 = .ok c.1 ∧ ctx.compile p.2 = .ok c.2) pairs parts)
    (hdefault : Option.Rel (fun f c => ctx.compile f = .ok c) default last)
    (hcase : ∀ c ∈ last, c.fragment.expr.isCase = false) :
    let results := parts.map (fun p => p.2.fragment) ++ (last.map Compiled.fragment).toList
    let unified := ctx.target.unify results
    ∃ c branches otherwise, ctx.compile (.switch subject pairs default) = .ok c ∧
      c.fragment = ⟨.case branches otherwise, commonType results, false⟩ ∧
      branches.length = pairs.length ∧
      (∀ (i : Nat) pattern result, pairs[i]? = some (pattern, result) →
        ∃ condition r, ctx.compile (.binary subject .eq pattern) = .ok condition ∧
          unified[i]? = some r ∧ branches[i]? = some (condition.fragment.expr, r.expr)) ∧
      otherwise.isSome = default.isSome ∧
      ∀ e ∈ otherwise, ∃ r, unified.getLast? = some r ∧ e = r.expr := by
  intro results unified
  obtain ⟨c, hc, hfragment⟩ := exists_compile_switch hne hsubject hpairs hdefault hcase
  refine ⟨c, _, _, hc, hfragment, ?_, ?_, ?_, ?_⟩
  · simp [hpairs.length_eq]
  · intro i pattern result hi
    obtain ⟨part, hpart, hpattern, -⟩ := exists_getElem?_of_forall₂ hpairs hi
    have hlt : i < parts.length := (List.getElem?_eq_some_iff.1 hpart).1
    have hresult : results[i]? = some part.2.fragment := by
      rw [List.getElem?_append_left (by simpa using hlt), List.getElem?_map, hpart]
      rfl
    have hunified : unified[i]? = some (ctx.target.unifyTo (commonType results) part.2.fragment) := by
      simp [unified, Target.unify, hresult]
    exact ⟨_, _, compile_binary hsubject hpattern, hunified, by simp [hpart, results, Compiled.binary]⟩
  · cases hdefault <;> rfl
  · intro e he
    obtain ⟨c, hlast, rfl⟩ := Option.map_eq_some_iff.1 he
    exact ⟨_, by simp [unified, Target.unify, results, hlast], rfl⟩

end Context

namespace Sample

/-- A number for one text, and none for another. -/
def grades : List (Formula × Formula) := [(.text "a", .number "1"), (.text "b", .text "")]

end Sample

/-- The empty result of the second pair is missing beside the number of the first, and stays at its place. -/
theorem Context.compile_switch_grades :
    ∃ c branches otherwise,
      Sample.totalsContext.compile (.switch (.field "s") Sample.grades (some (.field "n1"))) = .ok c ∧
      c.fragment = ⟨.case branches otherwise, .number, false⟩ ∧ branches.length = 2 ∧
      branches[1]? = some (.binary (.column none "s") .eq (.text "b"), .null) ∧
      otherwise = some (.column none "n1") := by
  have hpairs : List.Forall₂ (fun (p : Formula × Formula) (c : Compiled × Compiled) =>
      Sample.totalsContext.compile p.1 = .ok c.1 ∧ Sample.totalsContext.compile p.2 = .ok c.2)
      Sample.grades [(⟨.string (.text "a"), []⟩, ⟨.number (.number "1"), []⟩),
        (⟨.string (.text "b"), []⟩, ⟨.string (.text ""), []⟩)] :=
    .cons ⟨rfl, rfl⟩ (.cons ⟨rfl, rfl⟩ .nil)
  have hdefault : Option.Rel (fun (f : Formula) (c : Compiled) => Sample.totalsContext.compile f = .ok c)
      (some (.field "n1")) (some ⟨.number (.column none "n1"), ["n1"]⟩) := .some rfl
  have hsubject : Sample.totalsContext.compile (.field "s") = .ok ⟨.string (.column none "s"), ["s"]⟩ := rfl
  have hpattern : Sample.totalsContext.compile (.binary (.field "s") .eq (.text "b")) =
      .ok ⟨.boolean (.binary (.column none "s") .eq (.text "b")), ["s"]⟩ := rfl
  obtain ⟨c, branches, otherwise, hc, hfragment, hlength, hbranches, hsome, hlast⟩ :=
    compile_switch (List.cons_ne_nil _ _) hsubject hpairs hdefault (by rintro c ⟨⟩; rfl)
  obtain ⟨condition, r, hcondition, hr, hbranch⟩ := hbranches 1 _ _ rfl
  cases hpattern.symm.trans hcondition
  cases hr
  obtain ⟨e, rfl⟩ := Option.isSome_iff_exists.1 hsome
  obtain ⟨last, hunified, rfl⟩ := hlast e rfl
  cases hunified
  exact ⟨c, branches, _, hc, hfragment, hlength, hbranch, rfl⟩

end ComputedFields
