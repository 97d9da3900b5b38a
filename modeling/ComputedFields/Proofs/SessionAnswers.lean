/-
**A session answers as if nothing had been asked before.**

A session remembers the formula fields that it has expanded.  What it remembers is sound: each entry
is the value that the field has on its own.  One step of a session keeps this, whether or not it
succeeds, and with a sound memory it answers as the compiler without memory does.

A session also keeps a stack of the formula fields that it is expanding, and the set of the fields that it
has read.  Both belong to the expansion at hand only.  The stack is the same after a step as before it, and
a field that cannot be expanded leaves no trace in the set.  So the answers depend neither on the requests
before nor on their order.

Main definitions:

* `ComputedFields.SessionM.Restores`, `ComputedFields.SessionM.Notes` — a step that keeps the stack, and one
  that adds to the set what its value reads;
* `ComputedFields.SessionM.Answers` — a step with its answer, under an invariant of the session;
* `ComputedFields.Context.Remembers`, `ComputedFields.Context.Expanding` — a sound memory, and a session
  with one that is expanding the fields of a path;
* `ComputedFields.Context.valueOf` — the value of a request on its own.

Main results:

* `ComputedFields.Context.expandOnce_keeps` — **expanding a field restores the session**;
* `ComputedFields.Context.expandOnce_answers` — a field in a session;
* `ComputedFields.Context.ask_answers`, `ComputedFields.Context.session_answers` — a request, and several
  of them;
* `ComputedFields.Context.session_eq_map_fresh` — **a session answers as fresh ones do**.
-/

import ComputedFields.Compile.Session
import ComputedFields.Proofs.ReadOrder

set_option relaxedAutoImplicit false
set_option autoImplicit false

namespace ComputedFields

/-! ### Steps -/

namespace SessionM

variable {α β : Type} {x : SessionM α} {g : α → SessionM β} {s s' : Session}

theorem answer_bind_of_ok {a : α} (h : x.answer s = (.ok a, s')) :
    (x >>= g).answer s = (g a).answer s' := by
  unfold answer at h ⊢
  rw [run_bind, h]

theorem answer_bind_of_error {e : CompileError} (h : x.answer s = (.error e, s')) :
    (x >>= g).answer s = (.error e, s') := by
  unfold answer at h ⊢
  rw [run_bind, h]

/-- One step after another has a value when both have one. -/
theorem exists_of_answer_bind {b : β} (h : (x >>= g).answer s = (.ok b, s')) :
    ∃ a after, x.answer s = (.ok a, after) ∧ (g a).answer after = (.ok b, s') := by
  rcases hx : x.answer s with ⟨result, after⟩
  cases result with
  | ok a => exact ⟨a, after, rfl, by rw [← h, answer_bind_of_ok hx]⟩
  | error e =>
      rw [answer_bind_of_error hx] at h
      cases h

/-- A step that looks at the session first. -/
theorem answer_get_bind (g : Session → SessionM α) (s : Session) :
    (get >>= g : SessionM α).answer s = (g s).answer s := rfl

/-- An outcome that is passed on does not touch the session. -/
theorem eq_of_answer_ofExcept {result : Except CompileError α} {a : α}
    (h : (MonadExcept.ofExcept result : SessionM α).answer s = (.ok a, s')) : s' = s := by
  cases result with
  | ok a => cases h; rfl
  | error e => cases h

/-- A step inside a formula field does not fail: it tells how the step comes out. -/
theorem answer_within (id : String) (x : SessionM α) (s : Session) :
    (within id x).answer s =
      (.ok ((x.answer (s.enter id)).1, (x.answer (s.enter id)).2.reads),
        (x.answer (s.enter id)).2.leave s) := rfl

/-! ### What a step keeps -/

/-- Whatever becomes of the step, the session goes on with the formula fields that it was expanding. -/
def Restores (x : SessionM α) : Prop := ∀ s, (x.answer s).2.visiting = s.visiting

theorem Restores.bind (hx : Restores x) (hg : ∀ a, Restores (g a)) : Restores (x >>= g) := by
  intro s
  have hfirst := hx s
  rcases hanswer : x.answer s with ⟨result, after⟩
  rw [hanswer] at hfirst
  cases result with
  | ok a => rw [answer_bind_of_ok hanswer, hg a after, hfirst]
  | error e => rw [answer_bind_of_error hanswer, hfirst]

/-- Steps that are the same, and restore the stack. -/
theorem simulation_restores : Simulation fun (α : Type) (x y : SessionM α) => x = y ∧ Restores x where
  pure _ := ⟨rfl, fun _ => rfl⟩
  throw _ := ⟨rfl, fun _ => rfl⟩
  bind := by
    rintro α β x _ f g ⟨rfl, hx⟩ hfg
    exact ⟨by rw [funext fun a => (hfg a).1], hx.bind fun a => (hfg a).2⟩

end SessionM

theorem Formula.compileWith_restores {t : Target} {readM : String → SessionM Compiled} {f : Formula}
    (h : ∀ ref ∈ f.references, SessionM.Restores (readM ref)) :
    SessionM.Restores (f.compileWith t readM) := by
  have hboth : f.compileWith t readM = f.compileWith t readM ∧ SessionM.Restores (f.compileWith t readM) :=
    compileWith_simulates SessionM.simulation_restores fun ref href => ⟨rfl, h ref href⟩
  exact hboth.2

namespace SessionM

variable {α : Type}

/-- A value of the step adds to what the session has read what it reads itself. -/
def Notes (reads : α → List String) (x : SessionM α) : Prop :=
  ∀ s a s', x.answer s = (.ok a, s') → s'.reads = unionNew s.reads (reads a)

end SessionM

namespace Compiled

theorem unionNew_readsOfAll_cons (reads : List String) (c : Compiled) (rest : List Compiled) :
    unionNew reads (readsOfAll (c :: rest)) =
      unionNew (unionNew reads c.reads) (readsOfAll rest) := by
  rw [← foldl_reads, ← foldl_reads]
  rfl

end Compiled

namespace Formula

open SessionM

variable {t : Target} {readM : String → SessionM Compiled}

mutual

/-- A formula notes what it reads, if its references do. -/
theorem compileWith_notes :
    ∀ {f : Formula}, (∀ ref, Notes Compiled.reads (readM ref)) →
      Notes Compiled.reads (f.compileWith t readM)
  | .bool _, _, s, _, _, h => by cases h; rfl
  | .number _, _, s, _, _, h => by cases h; rfl
  | .text _, _, s, _, _, h => by cases h; rfl
  | .null, _, s, _, _, h => by cases h; rfl
  | .field id, hread, s, a, s', h => hread id s a s' h
  | .unary op operand, hread, s, _, s', h => by
      unfold compileWith at h
      obtain ⟨c, after, hoperand, h⟩ := exists_of_answer_bind h
      cases h
      exact compileWith_notes hread s c s' hoperand
  | .binary left op right, hread, s, _, s', h => by
      unfold compileWith at h
      obtain ⟨l, between, hleft, h⟩ := exists_of_answer_bind h
      obtain ⟨r, after, hright, h⟩ := exists_of_answer_bind h
      cases h
      rw [compileWith_notes hread between r s' hright, compileWith_notes hread s l between hleft,
        unionNew_assoc]
      rfl
  | .chain op operands, hread, s, _, s', h => by
      unfold compileWith at h
      obtain ⟨parts, after, hparts, h⟩ := exists_of_answer_bind h
      cases parts with
      | nil => cases h
      | cons first others =>
          cases h
          rw [compileAllWith_notes hread s _ s' hparts, Compiled.unionNew_readsOfAll_cons,
            Compiled.reads_foldl_binary, unionNew_assoc]
  | .call (.unknown name) args, _, s, _, s', h => by cases h
  | .call (.known f) args, hread, s, _, s', h => by
      unfold compileWith at h
      split at h
      · cases h
      · split at h
        · cases h
        · obtain ⟨parts, between, hparts, h⟩ := exists_of_answer_bind h
          obtain ⟨fragment, after, happly, h⟩ := exists_of_answer_bind h
          cases h
          rw [eq_of_answer_ofExcept happly]
          exact compileAllWith_notes hread s parts between hparts

theorem compileAllWith_notes :
    ∀ {fs : List Formula}, (∀ ref, Notes Compiled.reads (readM ref)) →
      Notes Compiled.readsOfAll (compileAllWith t readM fs)
  | [], _, s, _, _, h => by cases h; rfl
  | f :: rest, hread, s, _, s', h => by
      unfold compileAllWith at h
      obtain ⟨first, between, hfirst, h⟩ := exists_of_answer_bind h
      obtain ⟨others, after, hothers, h⟩ := exists_of_answer_bind h
      cases h
      rw [Compiled.unionNew_readsOfAll_cons, ← compileWith_notes hread s first between hfirst]
      exact compileAllWith_notes hread between others s' hothers

end

end Formula

/-! ### Expanding a field -/

namespace Context

open SessionM

variable {ctx : Context} {depth : Nat} {path : List String} {id : String} {s after : Session}
  {field : Field} {source : FormulaSource} {persisted : Bool} {f : Formula} {c : Compiled}

theorem answer_expandOnce_of_none (hfield : ctx.table.field? id = none) :
    (ctx.expandOnce (depth + 1) id).answer s = (.error (.fieldNotFound id), s) := by
  unfold expandOnce
  simp only [hfield]
  rfl

theorem answer_expandOnce_of_isFormula (hfield : ctx.table.field? id = some field)
    (hkind : field.kind.isFormula = false) :
    (ctx.expandOnce (depth + 1) id).answer s =
      (.ok (ctx.plain field), { s with reads := unionNew s.reads (ctx.plain field).reads }) := by
  unfold expandOnce
  simp only [hfield]
  cases hk : field.kind with
  | formula source persisted =>
      rw [hk] at hkind
      cases hkind
  | _ => rfl

/-- What is remembered of a formula field is not computed again. -/
theorem answer_expandOnce_of_memo (hfield : ctx.table.field? id = some field)
    (hkind : field.kind = .formula source persisted) (hmemo : s.memo.get? id = some c) :
    (ctx.expandOnce (depth + 1) id).answer s =
      (.ok c, { s with reads := unionNew s.reads c.reads }) := by
  unfold expandOnce
  simp only [hfield, hkind]
  rw [answer_get_bind]
  simp only [hmemo]
  rfl

/-- A formula field that is being expanded closes a circle. -/
theorem answer_expandOnce_of_visiting (hfield : ctx.table.field? id = some field)
    (hkind : field.kind = .formula source persisted) (hmemo : s.memo.get? id = none)
    (hvisiting : id ∈ s.visiting) :
    (ctx.expandOnce (depth + 1) id).answer s =
      (.error (.circularReference (circle s.visiting id)), s) := by
  unfold expandOnce
  simp only [hfield, hkind]
  rw [answer_get_bind]
  simp only [hmemo, hvisiting, if_true]
  rfl

theorem answer_expandOnce_of_unreadable {e : ParseError} (hfield : ctx.table.field? id = some field)
    (hkind : field.kind = .formula source persisted) (hmemo : s.memo.get? id = none)
    (hvisiting : id ∉ s.visiting) (hformula : source.formula = .error e) :
    (ctx.expandOnce (depth + 1) id).answer s = (.error (.parse e), s) := by
  unfold expandOnce
  simp only [hfield, hkind]
  rw [answer_get_bind]
  simp only [hmemo, hvisiting, if_false, hformula]
  rfl

/-- A formula field that is neither remembered nor being expanded is expanded inside itself. -/
theorem answer_expandOnce_of_formula {result : Except CompileError Compiled}
    (hfield : ctx.table.field? id = some field) (hkind : field.kind = .formula source persisted)
    (hmemo : s.memo.get? id = none) (hvisiting : id ∉ s.visiting) (hformula : source.formula = .ok f)
    (h : (f.compileWith ctx.target (ctx.expandOnce depth)).answer (s.enter id) = (result, after)) :
    (ctx.expandOnce (depth + 1) id).answer s =
      (do
        let c ← MonadExcept.ofExcept result
        let value := asField field ⟨c.fragment, after.reads⟩
        modify fun s => { s with memo := s.memo.insert id value }
        note value.reads
        pure value : SessionM Compiled).answer (after.leave s) := by
  have hwithin := answer_within id (f.compileWith ctx.target (ctx.expandOnce depth)) s
  rw [h] at hwithin
  unfold expandOnce
  simp only [hfield, hkind]
  rw [answer_get_bind]
  simp only [hmemo, hvisiting, if_false, hformula]
  rw [answer_bind_of_ok hwithin]

/-- **What the expansion of a field does to a session.**  It fails and changes nothing; it finds a value
and notes what that reads; or it compiles a formula inside the field, and if that has a value, remembers
and notes it. -/
theorem expandOnce_cases (ctx : Context) (depth : Nat) (id : String) (s : Session) :
    (∃ e, (ctx.expandOnce (depth + 1) id).answer s = (.error e, s)) ∨
      (∃ c, (ctx.expandOnce (depth + 1) id).answer s =
        (.ok c, { s with reads := unionNew s.reads c.reads })) ∨
      ∃ (f : Formula) (after : Session),
        ((f.compileWith ctx.target (ctx.expandOnce depth)).answer (s.enter id)).2 = after ∧
          ((∃ e, (ctx.expandOnce (depth + 1) id).answer s = (.error e, after.leave s)) ∨
            ∃ value, (ctx.expandOnce (depth + 1) id).answer s = (.ok value,
              { after.leave s with
                memo := after.memo.insert id value, reads := unionNew s.reads value.reads })) := by
  cases hfield : ctx.table.field? id with
  | none => exact .inl ⟨_, answer_expandOnce_of_none hfield⟩
  | some field =>
      cases hkind : field.kind with
      | formula source persisted =>
          cases hmemo : s.memo.get? id with
          | some c => exact .inr (.inl ⟨c, answer_expandOnce_of_memo hfield hkind hmemo⟩)
          | none =>
              by_cases hvisiting : id ∈ s.visiting
              · exact .inl ⟨_, answer_expandOnce_of_visiting hfield hkind hmemo hvisiting⟩
              cases hformula : source.formula with
              | error e =>
                  exact .inl ⟨_, answer_expandOnce_of_unreadable hfield hkind hmemo hvisiting hformula⟩
              | ok f =>
                  rcases hinner : (f.compileWith ctx.target (ctx.expandOnce depth)).answer (s.enter id)
                    with ⟨result, after⟩
                  have hanswer := answer_expandOnce_of_formula hfield hkind hmemo hvisiting hformula hinner
                  refine .inr (.inr ⟨f, after, by rw [hinner], ?_⟩)
                  cases result with
                  | error e => exact .inl ⟨e, hanswer⟩
                  | ok c => exact .inr ⟨_, hanswer⟩
      | _ =>
          have hplain : field.kind.isFormula = false := by rw [hkind]; rfl
          exact .inr (.inl ⟨_, answer_expandOnce_of_isFormula hfield hplain⟩)

/-- The field is taken from the stack again: what is compiled inside it leaves it there, at the end. -/
theorem expandOnce_restores (ctx : Context) (depth : Nat) (id : String) :
    Restores (ctx.expandOnce depth id) := by
  induction depth generalizing id with
  | zero => exact fun s => rfl
  | succ depth ih =>
      intro s
      -- the stack after a formula inside the field, without its end
      have hleave (f : Formula) :
          (((f.compileWith ctx.target (ctx.expandOnce depth)).answer (s.enter id)).2.leave s).visiting =
            s.visiting := by
        have hinner : Restores (f.compileWith ctx.target (ctx.expandOnce depth)) :=
          Formula.compileWith_restores fun ref _ => ih ref
        rw [Session.leave, hinner, Session.enter, List.dropLast_concat]
      rcases expandOnce_cases ctx depth id s with ⟨e, h⟩ | ⟨c, h⟩ | ⟨f, after, rfl, ⟨e, h⟩ | ⟨value, h⟩⟩
      · rw [h]
      · rw [h]
      · rw [h, hleave f]
      · rw [h]
        exact hleave f

/-- **Expanding a field restores the session.**  The stack of the fields that are being expanded is as
before, whether or not the field has a value.  A value adds to the set of fields what it reads; a failure
adds nothing. -/
theorem expandOnce_keeps (ctx : Context) (depth : Nat) (id : String) (s : Session) :
    ((ctx.expandOnce depth id).answer s).2.visiting = s.visiting ∧
      (∀ c, ((ctx.expandOnce depth id).answer s).1 = .ok c →
        ((ctx.expandOnce depth id).answer s).2.reads = unionNew s.reads c.reads) ∧
      ∀ e, ((ctx.expandOnce depth id).answer s).1 = .error e →
        ((ctx.expandOnce depth id).answer s).2.reads = s.reads := by
  refine ⟨expandOnce_restores ctx depth id s, ?_⟩
  cases depth with
  | zero => exact ⟨fun _ h => (by cases h), fun _ _ => rfl⟩
  | succ depth =>
      rcases expandOnce_cases ctx depth id s with ⟨e, h⟩ | ⟨c, h⟩ | ⟨f, after, -, ⟨e, h⟩ | ⟨value, h⟩⟩
      · rw [h]
        exact ⟨fun _ h => (by cases h), fun _ _ => rfl⟩
      · rw [h]
        exact ⟨fun _ h => (by cases h; rfl), fun _ h => (by cases h)⟩
      · rw [h]
        exact ⟨fun _ h => (by cases h), fun _ _ => rfl⟩
      · rw [h]
        exact ⟨fun _ h => (by cases h; rfl), fun _ h => (by cases h)⟩

theorem expandOnce_notes (ctx : Context) (depth : Nat) (id : String) :
    Notes Compiled.reads (ctx.expandOnce depth id) := by
  intro s c s' h
  have hkeeps := (expandOnce_keeps ctx depth id s).2.1 c
  rw [h] at hkeeps
  exact hkeeps rfl

end Context

/-! ### Answers -/

namespace SessionM

variable {α β : Type} {Inv : Session → Prop}

/-- From any session with the invariant the step gives the result, and the session after it has the
invariant again. -/
def Answers (Inv : Session → Prop) (step : SessionM α) (result : Except CompileError α) : Prop :=
  ∀ s, Inv s → (step.answer s).1 = result ∧ Inv (step.answer s).2

theorem Answers.bind {x : SessionM α} {g : α → SessionM β} {r : Except CompileError α}
    {k : α → Except CompileError β} (hx : Answers Inv x r) (hg : ∀ a, Answers Inv (g a) (k a)) :
    Answers Inv (x >>= g) (r >>= k) := by
  intro s hs
  obtain ⟨hresult, hinv⟩ := hx s hs
  rcases hanswer : x.answer s with ⟨result, after⟩
  rw [hanswer] at hresult hinv
  cases hresult
  cases result with
  | ok a =>
      rw [answer_bind_of_ok hanswer]
      exact hg a after hinv
  | error e =>
      rw [answer_bind_of_error hanswer]
      exact ⟨rfl, hinv⟩

theorem simulation_answers (Inv : Session → Prop) :
    Simulation fun (α : Type) (x : SessionM α) (r : Except CompileError α) => Answers Inv x r where
  pure _ _ hs := ⟨rfl, hs⟩
  throw _ _ hs := ⟨rfl, hs⟩
  bind hx hg := hx.bind hg

end SessionM

namespace Context

open SessionM

variable {ctx : Context} {depth : Nat} {path : List String} {id : String} {s : Session}
  {memo : Entries Compiled} {c : Compiled}

/-- Everything that is remembered of a field is its value. -/
def Remembers (ctx : Context) (memo : Entries Compiled) : Prop :=
  ∀ id c, memo.get? id = some c → ctx.compileField id = .ok c

theorem Remembers.insert (h : ctx.Remembers memo) (hc : ctx.compileField id = .ok c) :
    ctx.Remembers (memo.insert id c) := by
  intro id' c' hget
  by_cases heq : id = id'
  · subst heq
    rw [Entries.get?_insert_self] at hget
    cases hget
    exact hc
  · rw [Entries.get?_insert_of_ne memo c heq] at hget
    exact h id' c' hget

/-- The session remembers values, and is expanding the fields of the path. -/
structure Expanding (ctx : Context) (path : List String) (s : Session) : Prop where
  remembers : ctx.Remembers s.memo
  visiting : s.visiting = path

theorem expanding_nil : ctx.Expanding [] {} := ⟨fun id c h => (by cases h), rfl⟩

theorem Expanding.enter (h : ctx.Expanding path s) (id : String) :
    ctx.Expanding (path ++ [id]) (s.enter id) :=
  ⟨h.remembers, by rw [Session.enter, h.visiting]⟩

theorem Expanding.leave (h : ctx.Expanding (path ++ [id]) s) (outer : Session) :
    ctx.Expanding path (s.leave outer) :=
  ⟨h.remembers, by rw [Session.leave, h.visiting, List.dropLast_concat]⟩

/-- What a compiled formula reads, without repetition. -/
theorem unionNew_nil_reads {f : Formula}
    (h : f.compileWith ctx.target (ctx.expand depth path) = .ok c) : unionNew [] c.reads = c.reads :=
  unionNew_nil (Formula.compileWith_collects (fun _ _ hread => nodup_reads_of_expand hread) h).nodup

/-- A field in a session: what is remembered is its value on every trail, and what is expanded is
remembered with its value. -/
theorem expandOnce_answers (htrail : ctx.table.Trail path id)
    (hdepth : ctx.table.fields.length < depth + path.length) :
    Answers (ctx.Expanding path) (ctx.expandOnce depth id) (ctx.expand depth path id) := by
  induction depth generalizing path id with
  | zero =>
      obtain ⟨rest, hrest⟩ := htrail.exists_succ hdepth
      cases hrest
  | succ depth ih =>
      intro s hs
      cases hfield : ctx.table.field? id with
      | none =>
          rw [expand_of_none hfield, answer_expandOnce_of_none hfield]
          exact ⟨rfl, hs⟩
      | some field =>
          cases hkind : field.kind with
          | formula source persisted =>
              cases hget : s.memo.get? id with
              | some c =>
                  rw [expand_of_trail (hs.remembers id c hget) htrail hdepth,
                    answer_expandOnce_of_memo hfield hkind hget]
                  exact ⟨rfl, hs.remembers, hs.visiting⟩
              | none =>
                  by_cases hpath : id ∈ path
                  · rw [answer_expandOnce_of_visiting hfield hkind hget (hs.visiting ▸ hpath), hs.visiting]
                    unfold expand
                    simp only [hfield, hkind, hpath, if_true]
                    exact ⟨trivial, hs⟩
                  cases hformula : source.formula with
                  | error e =>
                      rw [answer_expandOnce_of_unreadable hfield hkind hget (hs.visiting ▸ hpath) hformula]
                      unfold expand
                      simp only [hfield, hkind, hpath, if_false, hformula]
                      exact ⟨trivial, hs⟩
                  | ok f =>
                      have hholds : ctx.table.Holds id f :=
                        ⟨field, source, persisted, hfield, hkind, hformula⟩
                      have hinner : Answers (ctx.Expanding (path ++ [id]))
                          (f.compileWith ctx.target (ctx.expandOnce depth))
                          (f.compileWith ctx.target (ctx.expand depth (path ++ [id]))) :=
                        Formula.compileWith_simulates (simulation_answers _) fun ref href =>
                          ih (htrail.step hpath (hholds.leads href)) (Table.depth_step hdepth)
                      obtain ⟨hresult, hafter⟩ := hinner _ (hs.enter id)
                      rcases hanswer : (f.compileWith ctx.target (ctx.expandOnce depth)).answer (s.enter id)
                        with ⟨result, after⟩
                      rw [hanswer] at hresult hafter
                      have hexpand : ctx.expand (depth + 1) path id = _ :=
                        expand_of_formula hfield hkind hpath hformula
                      rw [answer_expandOnce_of_formula hfield hkind hget (hs.visiting ▸ hpath) hformula
                        hanswer, hexpand, ← hresult]
                      cases result with
                      | error e => exact ⟨rfl, hafter.leave s⟩
                      | ok c =>
                          have hreads : after.reads = c.reads := by
                            rw [Formula.compileWith_notes (fun ref => expandOnce_notes ctx depth ref) _ _ _
                              hanswer]
                            exact unionNew_nil_reads hresult.symm
                          rw [← hresult] at hexpand
                          refine ⟨by rw [hreads]; rfl, ⟨?_, (hafter.leave s).visiting⟩⟩
                          rw [hreads]
                          exact hafter.remembers.insert (compileField_of_expand hexpand)
          | _ =>
              have hplain : field.kind.isFormula = false := by rw [hkind]; rfl
              rw [expand_of_isFormula hfield hplain, answer_expandOnce_of_isFormula hfield hplain]
              exact ⟨rfl, hs.remembers, hs.visiting⟩

/-! ### Requests -/

/-- The value that a request has on its own. -/
def valueOf (ctx : Context) : Request → Except CompileError Compiled
  | .tree root => ctx.compileTree root
  | .field id => ctx.compileField id

/-- A step that begins with nothing read tells all that its value reads. -/
theorem fromScratch_answers {step : SessionM Compiled} {result : Except CompileError Compiled}
    (h : Answers (ctx.Expanding path) step result) (hnotes : Notes Compiled.reads step)
    (hreads : ∀ c, result = .ok c → unionNew [] c.reads = c.reads) :
    Answers (ctx.Expanding path) (fromScratch step) result := by
  intro s hs
  obtain ⟨hresult, hafter⟩ := h { s with reads := [] } ⟨hs.remembers, hs.visiting⟩
  have hbegin : (modify fun s : Session => { s with reads := [] } : SessionM PUnit).answer s =
      (.ok ⟨⟩, { s with reads := [] }) := rfl
  unfold fromScratch
  rw [answer_bind_of_ok hbegin]
  rcases hanswer : step.answer { s with reads := [] } with ⟨answered, after⟩
  rw [hanswer] at hresult hafter
  subst hresult
  cases answered with
  | error e =>
      rw [answer_bind_of_error hanswer]
      exact ⟨rfl, hafter⟩
  | ok c =>
      have hnoted : after.reads = c.reads := (hnotes _ _ _ hanswer).trans (hreads c rfl)
      rw [answer_bind_of_ok hanswer, answer_get_bind, hnoted]
      exact ⟨rfl, hafter⟩

/-- A request is answered with its value, whatever else is remembered. -/
theorem ask_answers (request : Request) :
    Answers (ctx.Expanding []) (ctx.ask request) (ctx.valueOf request) := by
  have hfield (id : String) :
      Answers (ctx.Expanding []) (ctx.expandOnce ctx.depth id) (ctx.compileField id) :=
    expandOnce_answers .nil (Nat.lt_succ_self _)
  cases request with
  | field id =>
      refine fromScratch_answers (hfield id) (expandOnce_notes ctx ctx.depth id) fun c hc => ?_
      exact unionNew_nil (nodup_reads_of_expand hc)
  | tree root =>
      cases root with
      | none =>
          refine fromScratch_answers (fun _ hs => ⟨rfl, hs⟩) (fun _ _ _ h => ?_) fun _ h => ?_
          · cases h
          · cases h
      | some f =>
          refine fromScratch_answers ?_ ?_ fun c hc => unionNew_nil_reads hc
          · exact Formula.compileWith_simulates (simulation_answers _) fun ref _ => hfield ref
          · exact Formula.compileWith_notes fun ref => expandOnce_notes ctx ctx.depth ref

/-- The answers of a session, and the session after them, from a session on that remembers values and is
not expanding anything. -/
theorem session_answers (requests : List Request) (hs : ctx.Expanding [] s) :
    (ctx.session s requests).1 = requests.map ctx.valueOf ∧
      ctx.Expanding [] (ctx.session s requests).2 := by
  induction requests generalizing s with
  | nil => exact ⟨rfl, hs⟩
  | cons request rest ih =>
      obtain ⟨hanswer, hafter⟩ := ask_answers request s hs
      obtain ⟨hothers, hend⟩ := ih hafter
      refine ⟨?_, hend⟩
      rw [List.map_cons, ← hanswer, ← hothers]
      rfl

/-- A request is answered with its value after any others. -/
theorem ask_after_session (history : List Request) (request : Request) :
    ((ctx.ask request).answer (ctx.session {} history).2).1 = ctx.valueOf request :=
  (ask_answers request _ (session_answers history expanding_nil).2).1

/-- **A session answers as fresh ones do**: however many requests came before, in whatever order and
whether or not they failed, each one is answered as by a session that has not been asked anything. -/
theorem session_eq_map_fresh (ctx : Context) (requests : List Request) :
    (ctx.session {} requests).1 =
      requests.map fun request => ((ctx.ask request).answer {}).1 := by
  rw [(session_answers requests expanding_nil).1]
  refine List.map_congr_left fun request _ => ?_
  exact (ask_answers request {} expanding_nil).1.symm

end Context

end ComputedFields
