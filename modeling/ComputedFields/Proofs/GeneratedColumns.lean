/-
**What a generated column can hold, and what compiles for one.**

Two recursions decide about a generated column.  One checks a formula: its functions, the numbers of
their arguments and the fields it reaches.  The other compiles it.  They agree: a formula that passes
the check compiles, unless an argument has to be a literal and is none, and reads nothing but columns
of its record; and a formula that compiles and reads nothing else passes the check.  Only a chain
without operands passes the check and does not compile.

Main definitions:

* `ComputedFields.FailsOnly` — the errors that a computation can end in;
* `ComputedFields.CompileError.IsWrongType` — an argument does not have the type that is needed;
* `ComputedFields.Function.refusal`, `ComputedFields.Function.Overflows` — the error with which a function
  refuses an argument, and the call at which the compiler breaks off;
* `ComputedFields.Table.Stores` — a field in a column of the record that names no user.

Main results:

* `ComputedFields.Function.apply_failsOnly` — a supported function fails only on an argument that has
  to be a literal;
* `ComputedFields.Formula.compileWith_failsOnly`, `ComputedFields.Context.expand_failsOnly` — a formula
  and a field that pass the check fail only so;
* `ComputedFields.Formula.generatesWith_of_compileWith`,
  `ComputedFields.Context.fieldGeneratesFrom_of_expand` — what compiles passes the check;
* `ComputedFields.Context.generates_agrees` — **the check and the compiler agree**.
-/

import ComputedFields.Compile.Generated
import ComputedFields.Proofs.Expansion

set_option relaxedAutoImplicit false
set_option autoImplicit false

namespace ComputedFields

open Sql (Expr)

/-! ### Errors of a computation -/

/-- Every error of the computation satisfies `P`. -/
def FailsOnly {α : Type} (P : CompileError → Prop) (x : Except CompileError α) : Prop :=
  ∀ e, x = .error e → P e

/-- An argument does not have the type that the function needs. -/
def CompileError.IsWrongType (e : CompileError) : Prop := ∃ name index, e = .argumentType name index

namespace FailsOnly

variable {α β : Type} {P : CompileError → Prop}

theorem ok (a : α) : FailsOnly P (.ok a) := nofun

theorem error {e : CompileError} (h : P e) : FailsOnly P (.error e : Except CompileError α) := by
  intro e' he'
  cases he'
  exact h

theorem bind {x : Except CompileError α} {g : α → Except CompileError β} (hx : FailsOnly P x)
    (hg : ∀ a, x = .ok a → FailsOnly P (g a)) : FailsOnly P (x >>= g) := by
  cases x with
  | error e => exact .error (hx e rfl)
  | ok a => exact hg a rfl

theorem mono {Q : CompileError → Prop} {x : Except CompileError α} (hx : FailsOnly P x)
    (h : ∀ e, P e → Q e) : FailsOnly Q x := fun e he => h e (hx e he)

end FailsOnly

/-! ### Arguments of a call -/

namespace Call

variable {P : CompileError → Prop} {t : Target} {name : String} {args : List Fragment}
  {least index : Nat}

theorem arg_eq_ok_iff {f : Fragment} : arg ⟨name, args⟩ index = .ok f ↔ args[index]? = some f := by
  unfold arg
  cases args[index]? <;> simp

theorem arg_failsOnly (h : least ≤ args.length) (hindex : index < least) :
    FailsOnly P (arg ⟨name, args⟩ index) := by
  unfold arg
  rw [List.getElem?_eq_getElem (Nat.lt_of_lt_of_le hindex h)]
  exact .ok _

theorem numeric_failsOnly (h : least ≤ args.length) (hindex : index < least) :
    FailsOnly P (numeric t ⟨name, args⟩ index) :=
  (arg_failsOnly h hindex).bind fun _ _ => .ok _

theorem text_failsOnly (h : least ≤ args.length) (hindex : index < least) :
    FailsOnly P (text t ⟨name, args⟩ index) :=
  (arg_failsOnly h hindex).bind fun _ _ => .ok _

theorem integer_failsOnly (h : least ≤ args.length) (hindex : index < least) :
    FailsOnly P (integer t ⟨name, args⟩ index) :=
  (arg_failsOnly h hindex).bind fun _ _ => .ok _

theorem literal?_failsOnly (h : index < args.length → P (.argumentType name index)) :
    FailsOnly P (literal? ⟨name, args⟩ index) := by
  unfold literal?
  split
  · exact .ok _
  · next f hf =>
      split
      · exact .ok _
      · split
        · exact .ok _
        · exact .error (h (List.getElem?_eq_some_iff.1 hf).1)

theorem unit?_failsOnly (h : index < args.length → P (.argumentType name index)) :
    FailsOnly P (unit? ⟨name, args⟩ index) := by
  refine (literal?_failsOnly h).bind fun text hliteral => ?_
  cases text with
  | none => exact .ok _
  | some unit =>
      have hindex : index < args.length := by
        by_contra hle
        simp only [literal?, List.getElem?_eq_none (Nat.le_of_not_lt hle)] at hliteral
        cases hliteral
      simp only
      split
      · exact .ok _
      · exact .error (h hindex)

end Call

/-! ### Functions -/

theorem Signature.least_le_of_accepts {s : Signature} {count : Nat} (h : s.accepts count = true) :
    s.least ≤ count := by
  simp only [accepts, Bool.and_eq_true, decide_eq_true_eq] at h
  exact h.1

/-- The error with which a function refuses the argument at a place.  A distance to the present is
measured as one between two dates.  So the error names that function, and the place counts the present
among its arguments. -/
def Function.refusal (f : Function) (index : Nat) : CompileError :=
  match f with
  | .date .fromNow | .date .toNow => .argumentType DateFunction.datetimeDiff.signature.name (index + 1)
  | f => .argumentType f.name index

theorem Function.isWrongType_refusal (f : Function) (index : Nat) : (f.refusal index).IsWrongType := by
  unfold refusal
  split <;> exact ⟨_, _, rfl⟩

/-- The call raises a number to the least integer of 64 bits, where the database has no powers. -/
def Function.Overflows (t : Target) (f : Function) (args : List Fragment) : Prop :=
  f = .numeric .power ∧ t.dialect = .sqlite ∧
    ∃ exponent, args[1]? = some exponent ∧ exponent.expr.intLiteral? = some Int64.minValue

/-- Such a call does not compile for a generated column anyway. -/
theorem Function.not_overflows_of_supported {t : Target} {f : Function} {args : List Fragment}
    (hmode : t.mode = .generated) (h : f.supported t.dialect t.mode = true) : ¬ f.Overflows t args := by
  rintro ⟨rfl, hd, -⟩
  rw [hmode, hd] at h
  cases h

section

variable {P : CompileError → Prop} {t : Target} {args : List Fragment}

open Call

theorem NumericFunction.apply_failsOnly {f : NumericFunction}
    (h : f.signature.least ≤ args.length)
    (hoverflow : (Function.numeric f).Overflows t args → P .overflow) :
    FailsOnly P (f.apply t args) := by
  cases f with
  | sum | average => exact .ok _
  | max | min =>
      simp only [apply]
      split <;> exact .ok _
  | power =>
      refine (numeric_failsOnly h (by decide)).bind fun base _ =>
        (arg_failsOnly h (by decide)).bind fun exponent hexponent => ?_
      refine FailsOnly.bind (fun e he => ?_) fun _ _ => .ok _
      obtain ⟨rfl, hd, hleast⟩ := Target.power_eq_error_iff.1 he
      exact hoverflow ⟨rfl, hd, exponent, arg_eq_ok_iff.1 hexponent, hleast⟩
  | mod =>
      exact (arg_failsOnly h (by decide)).bind fun _ _ =>
        (arg_failsOnly h (by decide)).bind fun _ _ => .ok _
  | value => exact (text_failsOnly h (by decide)).bind fun _ _ => .ok _
  | _ => exact (numeric_failsOnly h (by decide)).bind fun _ _ => .ok _

theorem TextFunction.apply_failsOnly {f : TextFunction} (h : f.signature.least ≤ args.length)
    (hregexp : f = .regexpReplace → t.dialect = .postgres) :
    FailsOnly P (f.apply t args) := by
  cases f with
  | concatenate | t => exact (arg_failsOnly h (by decide)).bind fun _ _ => .ok _
  | find | search =>
      exact (text_failsOnly h (by decide)).bind fun _ _ =>
        (text_failsOnly h (by decide)).bind fun _ _ => .ok _
  | rept =>
      exact (text_failsOnly h (by decide)).bind fun _ _ =>
        (integer_failsOnly h (by decide)).bind fun _ _ => .ok _
  | mid =>
      exact (text_failsOnly h (by decide)).bind fun _ _ =>
        (integer_failsOnly h (by decide)).bind fun _ _ =>
        (integer_failsOnly h (by decide)).bind fun _ _ => .ok _
  | replace =>
      exact (text_failsOnly h (by decide)).bind fun _ _ =>
        (integer_failsOnly h (by decide)).bind fun _ _ =>
        (integer_failsOnly h (by decide)).bind fun _ _ =>
        (text_failsOnly h (by decide)).bind fun _ _ => .ok _
  | substitute =>
      exact (text_failsOnly h (by decide)).bind fun _ _ =>
        (text_failsOnly h (by decide)).bind fun _ _ =>
        (text_failsOnly h (by decide)).bind fun _ _ => .ok _
  | regexpReplace =>
      simp only [apply, hregexp rfl]
      exact (text_failsOnly h (by decide)).bind fun _ _ =>
        (text_failsOnly h (by decide)).bind fun _ _ =>
        (text_failsOnly h (by decide)).bind fun _ _ => .ok _
  | _ => exact (text_failsOnly h (by decide)).bind fun _ _ => .ok _

theorem LogicalFunction.apply_failsOnly {f : LogicalFunction}
    (h : f.signature.least ≤ args.length) : FailsOnly P (f.apply t args) := by
  cases f with
  | and | or | xor | blank => exact .ok _
  | ifElse =>
      exact (arg_failsOnly h (by decide)).bind fun _ _ =>
        (arg_failsOnly h (by decide)).bind fun _ _ => .ok _
  | switch | not => exact (arg_failsOnly h (by decide)).bind fun _ _ => .ok _
  | error | isError => exact (text_failsOnly h (by decide)).bind fun _ _ => .ok _

theorem DateFunction.difference_failsOnly (h : 2 ≤ args.length)
    (hunit : 2 < args.length → P (.argumentType datetimeDiff.signature.name 2)) :
    FailsOnly P (DateFunction.difference t args) :=
  (unit?_failsOnly hunit).bind fun _ _ =>
    (arg_failsOnly h (by decide)).bind fun _ _ => (arg_failsOnly h (by decide)).bind fun _ _ => .ok _

theorem DateFunction.apply_failsOnly {f : DateFunction}
    (h : f.signature.least ≤ args.length)
    (hrefusal : ∀ index < args.length, P ((Function.date f).refusal index)) :
    FailsOnly P (f.apply t args) := by
  cases f with
  | today | now | createdTime | lastModifiedTime => exact .ok _
  | weekday =>
      exact (arg_failsOnly h (by decide)).bind fun _ _ =>
        (literal?_failsOnly (hrefusal 1)).bind fun _ _ => .ok _
  | fromNow | toNow =>
      refine (arg_failsOnly h (by decide)).bind fun date _ => difference_failsOnly (by simp) fun hlt => ?_
      refine hrefusal 1 ?_
      by_contra hle
      simp [List.getElem?_eq_none (Nat.le_of_not_lt hle)] at hlt
  | datetimeDiff => exact difference_failsOnly h (hrefusal 2)
  | workday =>
      exact (arg_failsOnly h (by decide)).bind fun _ _ =>
        (integer_failsOnly h (by decide)).bind fun _ _ => .ok _
  | workdayDiff =>
      exact (arg_failsOnly h (by decide)).bind fun _ _ =>
        (arg_failsOnly h (by decide)).bind fun _ _ => .ok _
  | isSame | isAfter | isBefore =>
      exact (arg_failsOnly h (by decide)).bind fun _ _ =>
        (arg_failsOnly h (by decide)).bind fun _ _ =>
        (unit?_failsOnly (hrefusal 2)).bind fun _ _ => .ok _
  | dateAdd =>
      refine (unit?_failsOnly (hrefusal 2)).bind fun unit _ => ?_
      cases unit with
      | none => exact .error (hrefusal 2 h)
      | some u =>
          exact (arg_failsOnly h (by decide)).bind fun _ _ =>
            (numeric_failsOnly h (by decide)).bind fun _ _ => .ok _
  | datetimeFormat =>
      exact (literal?_failsOnly (hrefusal 1)).bind fun _ _ =>
        (arg_failsOnly h (by decide)).bind fun _ _ => .ok _
  | datetimeParse =>
      simp only [apply, parsed]
      split
      · exact (literal?_failsOnly (hrefusal 1)).bind fun _ _ =>
          (text_failsOnly h (by decide)).bind fun _ _ => .ok _
      · exact (text_failsOnly h (by decide)).bind fun _ _ => .ok _
  | _ => exact (arg_failsOnly h (by decide)).bind fun _ _ => .ok _

theorem ArrayFunction.apply_failsOnly {f : ArrayFunction} (h : f.signature.least ≤ args.length) :
    FailsOnly P (f.apply t args) := by
  cases f with
  | countA | count => exact .ok _
  | _ => exact (arg_failsOnly h (by decide)).bind fun _ _ => .ok _

theorem SystemFunction.apply_failsOnly {f : SystemFunction} (h : f.signature.least ≤ args.length) :
    FailsOnly P (f.apply t args) := by
  cases f with
  | recordId | autoNumber => exact .ok _
  | textAll =>
      exact (arg_failsOnly h (by decide)).bind fun _ _ =>
        ArrayFunction.apply_failsOnly (Nat.le_refl 1)

/-- **A supported function with an admissible number of arguments fails only on an argument that has
to be a literal**, and refuses that one; or the compiler breaks off at the least exponent. -/
theorem Function.apply_failsOnly {f : Function} (haccepts : f.accepts args.length = true)
    (hsupported : f.supported t.dialect t.mode = true) :
    FailsOnly (fun e => (∃ index < args.length, e = f.refusal index) ∨
      e = .overflow ∧ f.Overflows t args) (f.apply t args) := by
  have h : f.signature.least ≤ args.length := Signature.least_le_of_accepts haccepts
  cases f with
  | numeric g => exact NumericFunction.apply_failsOnly h fun hoverflow => .inr ⟨rfl, hoverflow⟩
  | text g =>
      refine TextFunction.apply_failsOnly h ?_
      rintro rfl
      cases hd : t.dialect with
      | postgres => rfl
      | sqlite =>
          cases hm : t.mode <;> simp [supported, generates, hd, hm] at hsupported
  | logical g => exact LogicalFunction.apply_failsOnly h
  | date g => exact DateFunction.apply_failsOnly h fun index hindex => .inl ⟨index, hindex, rfl⟩
  | array g => exact ArrayFunction.apply_failsOnly h
  | system g => exact SystemFunction.apply_failsOnly h

end

/-! ### Formulas -/

namespace Formula

variable {d : Dialect} {t : Target} {field : String → Bool}
  {read : String → Except CompileError Compiled}

mutual

/-- A formula that passes the check refers to fields that pass it. -/
theorem field_of_generatesWith :
    ∀ {f : Formula}, f.generatesWith d field = true → ∀ ref ∈ f.references, field ref = true
  | .bool _, _, ref, href => absurd href List.not_mem_nil
  | .number _, _, ref, href => absurd href List.not_mem_nil
  | .text _, _, ref, href => absurd href List.not_mem_nil
  | .null, _, ref, href => absurd href List.not_mem_nil
  | .field id, h, ref, href => List.mem_singleton.1 href ▸ h
  | .unary op operand, h, ref, href => @field_of_generatesWith operand h ref href
  | .binary left op right, h, ref, href => by
      simp only [generatesWith, Bool.and_eq_true] at h
      exact (mem_references_binary.1 href).elim (field_of_generatesWith h.1 ref)
        (field_of_generatesWith h.2 ref)
  | .chain op operands, h, ref, href => by
      obtain ⟨f, hf, href⟩ := mem_references_chain.1 href
      exact field_of_allGenerateWith h f hf ref href
  | .call callee args, h, ref, href => by
      simp only [generatesWith, Bool.and_eq_true] at h
      obtain ⟨f, hf, href⟩ := mem_references_call.1 href
      exact field_of_allGenerateWith h.2 f hf ref href

theorem field_of_allGenerateWith :
    ∀ {fs : List Formula}, allGenerateWith d field fs = true →
      ∀ f ∈ fs, ∀ ref ∈ f.references, field ref = true
  | [], _ => nofun
  | f :: rest, h => by
      simp only [allGenerateWith, Bool.and_eq_true] at h
      rw [List.forall_mem_cons]
      exact ⟨field_of_generatesWith h.1, field_of_allGenerateWith h.2⟩

end

theorem length_of_compileAllWith {fs : List Formula} {parts : List Compiled}
    (h : compileAllWith t read fs = .ok parts) : parts.length = fs.length :=
  (compileAllWith_eq_ok_iff.1 h).length_eq.symm

mutual

/-- A formula that passes the check and has no chain without operands fails only on an argument that
has to be a literal, if its references do. -/
theorem compileWith_failsOnly (hmode : t.mode = .generated) :
    ∀ {f : Formula}, f.generatesWith t.dialect field = true → (∀ op, ¬ Part (.chain op []) f) →
      (∀ ref ∈ f.references, FailsOnly CompileError.IsWrongType (read ref)) →
      FailsOnly CompileError.IsWrongType (f.compileWith t read)
  | .bool _, _, _, _ => .ok _
  | .number _, _, _, _ => .ok _
  | .text _, _, _, _ => .ok _
  | .null, _, _, _ => .ok _
  | .field id, _, _, hread => hread id (List.mem_singleton_self id)
  | .unary op operand, h, hchain, hread => by
      unfold compileWith
      exact (@compileWith_failsOnly hmode operand h (fun op hpart => hchain op (.operand hpart))
        hread).bind fun _ _ => .ok _
  | .binary left op right, h, hchain, hread => by
      simp only [generatesWith, Bool.and_eq_true] at h
      unfold compileWith
      refine (compileWith_failsOnly hmode h.1 (fun op hpart => hchain op (.left hpart))
        fun ref href => hread ref (mem_references_binary.2 (.inl href))).bind fun _ _ => ?_
      exact (compileWith_failsOnly hmode h.2 (fun op hpart => hchain op (.right hpart))
        fun ref href => hread ref (mem_references_binary.2 (.inr href))).bind fun _ _ => .ok _
  | .chain op operands, h, hchain, hread => by
      unfold compileWith
      refine (compileAllWith_failsOnly hmode h (fun f hf op hpart => hchain op (.chain hf hpart))
        (fun f hf ref href => hread ref (mem_references_chain.2 ⟨f, hf, href⟩))).bind
        fun parts hparts => ?_
      cases parts with
      | cons first others => exact .ok _
      | nil =>
          have hnil : operands = [] := List.length_eq_zero_iff.1 (length_of_compileAllWith hparts).symm
          exact absurd (hnil ▸ .self) (hchain op)
  | .call (.unknown name) args, h, _, _ => by
      simp [generatesWith, Callee.supported] at h
  | .call (.known f) args, h, hchain, hread => by
      simp only [generatesWith, Callee.supported, Bool.and_eq_true] at h
      obtain ⟨⟨hsupported, haccepts⟩, hargs⟩ := h
      have haccepts : f.accepts args.length = true := haccepts
      rw [← hmode] at hsupported
      unfold compileWith
      simp only [haccepts, hsupported, Bool.not_true, Bool.false_eq_true, if_false]
      refine (compileAllWith_failsOnly hmode hargs (fun f hf op hpart => hchain op (.call hf hpart))
        (fun f hf ref href => hread ref (mem_references_call.2 ⟨f, hf, href⟩))).bind
        fun parts hparts => ?_
      refine FailsOnly.bind ?_ fun _ _ => .ok _
      rw [ofExcept_except]
      rw [← length_of_compileAllWith hparts, ← List.length_map (f := Compiled.fragment)] at haccepts
      refine (Function.apply_failsOnly haccepts hsupported).mono ?_
      rintro e (⟨index, -, rfl⟩ | ⟨-, hoverflow⟩)
      · exact f.isWrongType_refusal index
      · exact absurd hoverflow (Function.not_overflows_of_supported hmode hsupported)

theorem compileAllWith_failsOnly (hmode : t.mode = .generated) :
    ∀ {fs : List Formula}, allGenerateWith t.dialect field fs = true →
      (∀ f ∈ fs, ∀ op, ¬ Part (.chain op []) f) →
      (∀ f ∈ fs, ∀ ref ∈ f.references, FailsOnly CompileError.IsWrongType (read ref)) →
      FailsOnly CompileError.IsWrongType (compileAllWith t read fs)
  | [], _, _, _ => .ok _
  | f :: rest, h, hchain, hread => by
      simp only [allGenerateWith, Bool.and_eq_true] at h
      unfold compileAllWith
      refine (compileWith_failsOnly hmode h.1 (hchain f List.mem_cons_self)
        (hread f List.mem_cons_self)).bind fun _ _ => ?_
      exact (compileAllWith_failsOnly hmode h.2
        (fun f' hf' => hchain f' (List.mem_cons_of_mem _ hf'))
        (fun f' hf' => hread f' (List.mem_cons_of_mem _ hf'))).bind fun _ _ => .ok _

end

mutual

/-- A formula that compiles for a generated column passes the check, if its references do. -/
theorem generatesWith_of_compileWith (hmode : t.mode = .generated) :
    ∀ {f : Formula} {c : Compiled}, f.compileWith t read = .ok c →
      (∀ ref ∈ f.references, field ref = true) → f.generatesWith t.dialect field = true
  | .bool _, _, _, _ => rfl
  | .number _, _, _, _ => rfl
  | .text _, _, _, _ => rfl
  | .null, _, _, _ => rfl
  | .field id, _, _, hfield => hfield id (List.mem_singleton_self id)
  | .unary op operand, c, h, hfield => by
      obtain ⟨c', hoperand, -⟩ := exists_of_bind_eq_ok h
      rw [generatesWith]
      exact generatesWith_of_compileWith hmode hoperand hfield
  | .binary left op right, c, h, hfield => by
      obtain ⟨l, hleft, h⟩ := exists_of_bind_eq_ok h
      obtain ⟨r, hright, -⟩ := exists_of_bind_eq_ok h
      rw [generatesWith, Bool.and_eq_true]
      exact ⟨generatesWith_of_compileWith hmode hleft fun ref href =>
          hfield ref (mem_references_binary.2 (.inl href)),
        generatesWith_of_compileWith hmode hright fun ref href =>
          hfield ref (mem_references_binary.2 (.inr href))⟩
  | .chain op operands, c, h, hfield => by
      obtain ⟨parts, hparts, -⟩ := exists_of_bind_eq_ok h
      exact allGenerateWith_of_compileAllWith hmode hparts fun f hf ref href =>
        hfield ref (mem_references_chain.2 ⟨f, hf, href⟩)
  | .call (.unknown name) args, c, h, _ => by cases h
  | .call (.known f) args, c, h, hfield => by
      obtain ⟨haccepts, hsupported, parts, -, hparts, -, -⟩ := compileWith_call_eq_ok_iff.1 h
      rw [hmode] at hsupported
      rw [generatesWith, Bool.and_eq_true, Bool.and_eq_true]
      refine ⟨⟨hsupported, haccepts⟩, ?_⟩
      exact allGenerateWith_of_compileAllWith hmode hparts fun f hf ref href =>
        hfield ref (mem_references_call.2 ⟨f, hf, href⟩)

theorem allGenerateWith_of_compileAllWith (hmode : t.mode = .generated) :
    ∀ {fs : List Formula} {parts : List Compiled}, compileAllWith t read fs = .ok parts →
      (∀ f ∈ fs, ∀ ref ∈ f.references, field ref = true) → allGenerateWith t.dialect field fs = true
  | [], _, _, _ => rfl
  | f :: rest, parts, h, hfield => by
      obtain ⟨first, hfirst, h⟩ := exists_of_bind_eq_ok h
      obtain ⟨others, hothers, -⟩ := exists_of_bind_eq_ok h
      rw [allGenerateWith, Bool.and_eq_true]
      exact ⟨generatesWith_of_compileWith hmode hfirst (hfield f List.mem_cons_self),
        allGenerateWith_of_compileAllWith hmode hothers fun f' hf' =>
          hfield f' (List.mem_cons_of_mem _ hf')⟩

end

end Formula

/-! ### Fields -/

/-- The field is in a column of the record and names no user. -/
def Table.Stores (table : Table) (id : String) : Prop :=
  ∃ field, table.field? id = some field ∧
    (field.kind = .column ∨ ∃ s, field.kind = .system s ∧ s.isUser = false)

namespace Table

variable {table : Table} {d : Dialect} {depth : Nat} {path : List String} {id : String}

/-- What passes the check of fields: a stored field, or a formula field whose formula passes. -/
theorem fieldGeneratesFrom_cases (h : table.fieldGeneratesFrom d depth path id = true) :
    ∃ depth', depth = depth' + 1 ∧
      (table.Stores id ∨ id ∉ path ∧ ∃ f, table.Holds id f ∧
        f.generatesWith d (table.fieldGeneratesFrom d depth' (id :: path)) = true) := by
  cases depth with
  | zero => cases h
  | succ depth =>
      refine ⟨depth, rfl, ?_⟩
      unfold fieldGeneratesFrom at h
      cases hfield : table.field? id with
      | none => simp [hfield] at h
      | some field =>
          simp only [hfield] at h
          cases hkind : field.kind with
          | column => exact .inl ⟨field, hfield, .inl hkind⟩
          | system s =>
              simp only [hkind, Bool.not_eq_true'] at h
              exact .inl ⟨field, hfield, .inr ⟨s, hkind, h⟩⟩
          | formula source persisted =>
              simp only [hkind] at h
              split at h
              · cases h
              · next hpath =>
                  split at h
                  · cases h
                  · next f hformula =>
                      exact .inr ⟨hpath, f, ⟨field, source, persisted, hfield, hkind, hformula⟩, h⟩
          | _ =>
              simp only [hkind] at h
              cases h

theorem fieldGeneratesFrom_of_stores (h : table.Stores id) :
    table.fieldGeneratesFrom d (depth + 1) path id = true := by
  obtain ⟨field, hfield, hkind | ⟨s, hkind, huser⟩⟩ := h
  · simp only [fieldGeneratesFrom, hfield, hkind]
  · simp only [fieldGeneratesFrom, hfield, hkind, huser, Bool.not_false]

theorem fieldGeneratesFrom_of_holds {f : Formula} (h : table.Holds id f) (hpath : id ∉ path) :
    table.fieldGeneratesFrom d (depth + 1) path id =
      f.generatesWith d (table.fieldGeneratesFrom d depth (id :: path)) := by
  obtain ⟨field, source, persisted, hfield, hkind, hformula⟩ := h
  simp only [fieldGeneratesFrom, hfield, hkind, hpath, if_false, hformula]

theorem Stores.isFormula {field : Field} (h : table.Stores id)
    (hfield : table.field? id = some field) : field.kind.isFormula = false := by
  obtain ⟨field', hfield', hkind⟩ := h
  cases hfield.symm.trans hfield'
  rcases hkind with hkind | ⟨s, hkind, -⟩
  · rw [hkind]
    rfl
  · rw [hkind]
    rfl

end Table

namespace Context

variable {ctx : Context} {depth : Nat} {path path' : List String} {id : String} {c : Compiled}

theorem expand_of_stores (depth : Nat) (path : List String) (h : ctx.table.Stores id) :
    ∃ field, ctx.table.field? id = some field ∧
      ctx.expand (depth + 1) path id = .ok (ctx.plain field) := by
  have hstores := h
  obtain ⟨field, hfield, -⟩ := h
  exact ⟨field, hfield, expand_of_isFormula hfield (hstores.isFormula hfield)⟩

/-- A field that passes the check fails only on an argument that has to be a literal. -/
theorem expand_failsOnly (hmode : ctx.target.mode = .generated)
    (hpath : ∀ x, x ∈ path ↔ x ∈ path')
    (h : ctx.table.fieldGeneratesFrom ctx.target.dialect depth path' id = true)
    (hchain : ∀ id' g, Relation.ReflTransGen ctx.table.Leads id id' → ctx.table.Holds id' g →
      ∀ op, ¬ Formula.Part (.chain op []) g) :
    FailsOnly CompileError.IsWrongType (ctx.expand depth path id) := by
  induction depth generalizing path path' id with
  | zero => cases h
  | succ depth ih =>
      obtain ⟨depth', heq, hstores | ⟨hid, f, hholds, hgenerates⟩⟩ := Table.fieldGeneratesFrom_cases h
      · obtain ⟨field, -, hexpand⟩ := expand_of_stores depth path hstores
        rw [hexpand]
        exact .ok _
      · cases heq
        have hholds' := hholds
        obtain ⟨field, source, persisted, hfield, hkind, hformula⟩ := hholds'
        rw [expand_of_formula hfield hkind (mt (hpath id).1 hid) hformula]
        refine FailsOnly.bind ?_ fun _ _ => .ok _
        refine Formula.compileWith_failsOnly hmode hgenerates (hchain id f .refl hholds)
          fun ref href => ?_
        refine ih (fun x => ?_) (Formula.field_of_generatesWith hgenerates ref href)
          fun id' g hway => hchain id' g (hway.head (hholds.leads href))
        simp [hpath x, or_comm]

/-- A field that passes the check reads stored fields only. -/
theorem stores_of_mem_reads (hpath : ∀ x, x ∈ path ↔ x ∈ path')
    (h : ctx.table.fieldGeneratesFrom ctx.target.dialect depth path' id = true)
    (hc : ctx.expand depth path id = .ok c) : ∀ x ∈ c.reads, ctx.table.Stores x := by
  induction depth generalizing path path' id c with
  | zero => cases hc
  | succ depth ih =>
      intro x hx
      obtain ⟨depth', heq, hstores | ⟨hid, f, hholds, hgenerates⟩⟩ := Table.fieldGeneratesFrom_cases h
      · obtain ⟨field, hfield, hexpand⟩ := expand_of_stores depth path hstores
        cases hexpand.symm.trans hc
        rw [List.mem_singleton.1 hx, Table.id_of_field? hfield]
        exact hstores
      · cases heq
        have hholds' := hholds
        obtain ⟨field, source, persisted, hfield, hkind, hformula⟩ := hholds'
        rw [expand_of_formula hfield hkind (mt (hpath id).1 hid) hformula] at hc
        obtain ⟨c', hcompile, heq⟩ := exists_of_bind_eq_ok hc
        cases heq
        rw [reads_asField] at hx
        obtain ⟨ref, href, c'', hread, hx⟩ :=
          ((Formula.compileWith_gathers hcompile).reads_iff x).1 hx
        refine ih (fun x => ?_) (Formula.field_of_generatesWith hgenerates ref href) hread x hx
        simp [hpath x, or_comm]

/-- A field that compiles for a generated column and reads stored fields only passes the check. -/
theorem fieldGeneratesFrom_of_expand (hmode : ctx.target.mode = .generated)
    (hpath : ∀ x, x ∈ path ↔ x ∈ path') (hc : ctx.expand depth path id = .ok c)
    (hreads : ∀ x ∈ c.reads, ctx.table.Stores x) :
    ctx.table.fieldGeneratesFrom ctx.target.dialect depth path' id = true := by
  induction depth generalizing path path' id c with
  | zero => cases hc
  | succ depth ih =>
      obtain ⟨field, hfield, ⟨hleaf, rfl⟩ | ⟨depth', source, persisted, f, c', heq, hkind, hid,
        hformula, hcompile, rfl⟩⟩ := expand_cases hc
      · have hstores := hreads field.id (List.mem_singleton_self _)
        rw [Table.id_of_field? hfield] at hstores
        exact Table.fieldGeneratesFrom_of_stores hstores
      · cases heq
        have hholds : ctx.table.Holds id f := ⟨field, source, persisted, hfield, hkind, hformula⟩
        rw [Table.fieldGeneratesFrom_of_holds hholds (mt (hpath id).2 hid)]
        refine Formula.generatesWith_of_compileWith hmode hcompile fun ref href => ?_
        have hgathers := Formula.compileWith_gathers hcompile
        obtain ⟨c'', hread⟩ := hgathers.total ref href
        refine ih (fun x => ?_) hread fun x hx => hreads x ?_
        · simp [hpath x, or_comm]
        · rw [reads_asField]
          exact (hgathers.reads_iff x).2 ⟨ref, href, c'', hread, hx⟩

/-! ### The check and the compiler -/

/-- **The check and the compiler agree.**  Where neither a tree nor a formula behind it has a chain
without operands, a tree that passes the check compiles and reads stored fields only, or fails on an
argument that has to be a literal.  A tree that compiles and reads stored fields only passes the
check. -/
theorem generates_agrees (ctx : Context) (hmode : ctx.target.mode = .generated)
    (root : Option Formula) :
    ((∀ f g, root = some f → ctx.table.Expanded f g → ∀ op, ¬ Formula.Part (.chain op []) g) →
      ctx.table.generates ctx.target.dialect root = true →
        (∃ c, ctx.compileTree root = .ok c ∧ ∀ id ∈ c.reads, ctx.table.Stores id) ∨
          ∃ name index, ctx.compileTree root = .error (.argumentType name index)) ∧
    ∀ c, ctx.compileTree root = .ok c → (∀ id ∈ c.reads, ctx.table.Stores id) →
      ctx.table.generates ctx.target.dialect root = true := by
  cases root with
  | none => exact ⟨nofun, nofun⟩
  | some f =>
      refine ⟨fun hchain h => ?_, fun c hc hreads => ?_⟩
      · have hfails : FailsOnly CompileError.IsWrongType (ctx.compile f) := by
          refine Formula.compileWith_failsOnly hmode h (hchain f f rfl (.inl rfl)) fun ref href => ?_
          refine expand_failsOnly hmode (fun _ => Iff.rfl) (Formula.field_of_generatesWith h ref href)
            fun id g hway hholds => hchain f g rfl (.inr ⟨id, .of_leads href hway, hholds⟩)
        cases hc : ctx.compile f with
        | error e =>
            obtain ⟨name, index, rfl⟩ := hfails e hc
            exact .inr ⟨name, index, hc⟩
        | ok c =>
            refine .inl ⟨c, hc, fun id hid => ?_⟩
            obtain ⟨ref, href, c', hread, hid⟩ := ((Formula.compileWith_gathers hc).reads_iff id).1 hid
            exact stores_of_mem_reads (fun _ => Iff.rfl) (Formula.field_of_generatesWith h ref href)
              hread id hid
      · refine Formula.generatesWith_of_compileWith hmode hc fun ref href => ?_
        have hgathers := Formula.compileWith_gathers hc
        obtain ⟨c', hread⟩ := hgathers.total ref href
        exact fieldGeneratesFrom_of_expand hmode (fun _ => Iff.rfl) hread fun id hid =>
          hreads id ((hgathers.reads_iff id).2 ⟨ref, href, c', hread, hid⟩)

/-- A tree over formulas that use each other passes the check, has no chain without operands behind it,
and compiles. -/
theorem generates_agrees_summary :
    Sample.totalsContext.target.mode = .generated ∧
    (∀ f g, some Sample.summary = some f → Sample.totals.Expanded f g →
      ∀ op, ¬ Formula.Part (.chain op []) g) ∧
    Sample.totals.generates .sqlite (some Sample.summary) = true ∧
    ((∃ c, Sample.totalsContext.compileTree (some Sample.summary) = .ok c ∧
        ∀ id ∈ c.reads, Sample.totals.Stores id) ∨
      ∃ name index, Sample.totalsContext.compileTree (some Sample.summary) =
        .error (.argumentType name index)) := by
  have hchain : ∀ f g, some Sample.summary = some f → Sample.totals.Expanded f g →
      ∀ op, ¬ Formula.Part (.chain op []) g := by
    rintro f g hf (rfl | ⟨id, -, hholds⟩) op
    · cases hf
      rintro (_ | _ | ⟨⟨⟩⟩ | ⟨⟨⟩⟩)
    · rcases Sample.totals_holds hholds with ⟨-, rfl⟩ | ⟨-, rfl⟩ | ⟨-, rfl⟩ <;>
        rintro (_ | _ | ⟨⟨⟩⟩ | ⟨⟨⟩⟩)
  have hgenerates : Sample.totals.generates .sqlite (some Sample.summary) = true := by decide
  exact ⟨rfl, hchain, hgenerates,
    (generates_agrees Sample.totalsContext rfl (some Sample.summary)).1 hchain hgenerates⟩

end Context

/-! ### A chain without operands -/

namespace Sample

/-- The tree of the formula field is a sum of nothing. -/
def hollow : Table :=
  .ofFields "tbl" "tbl"
    [.single "fldF" "fldF" .number (.formula (.tree (some (.chain .add []))) false)]

def hollowContext : Context :=
  ⟨hollow, { dialect := .sqlite, mode := .generated, now := ⟨0⟩ }, .detached⟩

end Sample

namespace Context

/-- A tree without such a chain can reach one through a formula field; then it passes the check and
does not compile. -/
theorem generates_hollow_field :
    Sample.hollowContext.target.mode = .generated ∧
    (∀ op, ¬ Formula.Part (.chain op []) (.field "fldF")) ∧
    Sample.hollow.generates .sqlite (some (.field "fldF")) = true ∧
    Sample.hollowContext.compileTree (some (.field "fldF")) =
      .error (.unsupportedOperator "+") ∧
    ¬ ((∃ c, Sample.hollowContext.compileTree (some (.field "fldF")) = .ok c ∧
          ∀ id ∈ c.reads, Sample.hollow.Stores id) ∨
        ∃ name index, Sample.hollowContext.compileTree (some (.field "fldF")) =
          .error (.argumentType name index)) := by
  have hcompile : Sample.hollowContext.compileTree (some (.field "fldF")) =
      .error (.unsupportedOperator "+") := by rfl
  refine ⟨rfl, fun op => nofun, by decide, hcompile, ?_⟩
  rw [hcompile]
  rintro (⟨c, hc, -⟩ | ⟨name, index, hc⟩)
  · cases hc
  · cases hc

end Context

end ComputedFields
