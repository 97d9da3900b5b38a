/-
**Runs of a query state.**

While a query is built, fields are registered with common table expressions and selected by SQL, views of
the state are entered and left, and selections are written in them.  A view sees what encloses it, unless
it is detached; views nest to any depth.  Here the state and its open views after any such run are
compared with the history of the run, which records what was done and never looks anything up.

Nothing that was registered is ever changed.  A view reads the last write to a field in itself, or else
what the enclosing one reads.  Whatever is written in a view, the state and the views around it stay as
they are, at every moment until the view is left and after that.

Main definitions:

* `ComputedFields.StateAction` — what can be done with a state and its views;
* `ComputedFields.Views` — a state with its open views, and `ComputedFields.Views.run?`, their runs;
* `ComputedFields.History` — what was done, with the journals of the open views;
* `ComputedFields.Views.Accounts` — what a state and its views owe to their history.

Main results:

* `ComputedFields.Views.reflects_of_step` — one step of a run is one line in its history;
* `ComputedFields.Views.run_stays` — **a body that stays inside its view** touches nothing outside;
* `ComputedFields.Views.run_accounts` — **every run accounts for what is seen**.
-/

import ComputedFields.Proofs.Selection

set_option relaxedAutoImplicit false
set_option autoImplicit false

namespace ComputedFields

/-! ### States and their views -/

/-- What a view sees of the one that encloses it: everything or nothing. -/
inductive ViewKind where
  | nested
  | detached
  deriving DecidableEq, Repr

/-- What can be done with a state and its views.  Writes go to the innermost view. -/
inductive StateAction where
  | registerCte (field cte : String)
  | setSelection (field sql : String)
  | enter (kind : ViewKind)
  | leave
  deriving DecidableEq, Repr

/-- A state and its open views, the innermost first. -/
structure Views where
  state : QueryState := {}
  opened : List Scope := []
  deriving DecidableEq, Repr

namespace Views

/-- The view outside the innermost `k` ones; outside all of them it is that of the state. -/
def view (v : Views) (k : Nat) : Scope := (v.opened[k]?).getD v.state.scope

/-- One action.  Fields are registered outside of all views, and a registration that fails leaves
everything as it is. -/
def step? (v : Views) : StateAction → Option Views
  | .registerCte field cte =>
      match v.opened with
      | [] =>
          match v.state.registerCte field cte with
          | .ok state => some { v with state }
          | .error _ => some v
      | _ :: _ => none
  | .setSelection field sql =>
      match v.opened with
      | [] => some { v with state := v.state.setSelection field sql }
      | view :: outer => some { v with opened := view.setSelection field sql :: outer }
  | .enter .nested => some { v with opened := (v.view 0).nested :: v.opened }
  | .enter .detached => some { v with opened := .detached :: v.opened }
  | .leave =>
      match v.opened with
      | [] => none
      | _ :: outer => some { v with opened := outer }

/-- Actions one after the other. -/
def run? (v : Views) : List StateAction → Option Views
  | [] => some v
  | action :: rest => (v.step? action).bind fun next => next.run? rest

theorem run?_cons_eq_some {v w : Views} {action : StateAction} {rest : List StateAction} :
    v.run? (action :: rest) = some w ↔ ∃ next, v.step? action = some next ∧ next.run? rest = some w :=
  Option.bind_eq_some_iff

/-- Everything is possible but to register a field inside a view, and to leave a view outside of all. -/
theorem step?_eq_none_iff {v : Views} {action : StateAction} :
    v.step? action = none ↔
      (∃ field cte, action = .registerCte field cte ∧ v.opened ≠ []) ∨
        action = .leave ∧ v.opened = [] := by
  cases action with
  | registerCte field cte =>
      cases hopened : v.opened with
      | nil => cases hregister : v.state.registerCte field cte <;> simp [step?, hopened, hregister]
      | cons view outer => simp [step?, hopened]
  | setSelection field sql => cases hopened : v.opened <;> simp [step?, hopened]
  | enter kind => cases kind <;> simp [step?]
  | leave => cases hopened : v.opened <;> simp [step?, hopened]

end Views

/-! ### Histories -/

/-- The writes to an open view, in order. -/
structure Journal where
  kind : ViewKind
  writes : List (String × String) := []
  deriving DecidableEq, Repr

/-- What was done in a run: the registrations, the writes to the state itself, and the journals of the
open views, the innermost first. -/
structure History where
  registrations : List (String × String) := []
  writes : List (String × String) := []
  journals : List Journal := []
  deriving DecidableEq, Repr

namespace History

/-- The history with one more action. -/
def record (h : History) : StateAction → History
  | .registerCte field cte => { h with registrations := h.registrations ++ [(field, cte)] }
  | .setSelection field sql =>
      match h.journals with
      | [] => { h with writes := h.writes ++ [(field, sql)] }
      | j :: outer =>
          { h with journals := { j with writes := j.writes ++ [(field, sql)] } :: outer }
  | .enter kind => { h with journals := { kind } :: h.journals }
  | .leave => { h with journals := h.journals.tail }

/-- The history of a run. -/
def of (actions : List StateAction) : History := actions.foldl record {}

/-- What is last written to a field in the innermost view that wrote it, up to the first detached one. -/
def lastWrite (writes : List (String × String)) : List Journal → String → Option String
  | [], field => writes.reverse.lookup field
  | j :: outer, field =>
      (j.writes.reverse.lookup field).or
        (match j.kind with
          | .nested => lastWrite writes outer field
          | .detached => none)

/-- Registrations are recorded and never dropped. -/
theorem registrations_foldl_record (h : History) (actions : List StateAction) :
    ∃ more, (actions.foldl record h).registrations = h.registrations ++ more := by
  induction actions generalizing h with
  | nil => exact ⟨[], (List.append_nil _).symm⟩
  | cons action rest ih =>
      obtain ⟨more, hmore⟩ := ih (h.record action)
      obtain ⟨new, hnew⟩ : ∃ new, (h.record action).registrations = h.registrations ++ new := by
        cases action with
        | registerCte field cte => exact ⟨[(field, cte)], rfl⟩
        | setSelection field sql =>
            refine ⟨[], ?_⟩
            cases hjournals : h.journals <;> simp [record, hjournals]
        | enter kind => exact ⟨[], (List.append_nil _).symm⟩
        | leave => exact ⟨[], (List.append_nil _).symm⟩
      exact ⟨new ++ more, by rw [List.foldl_cons, hmore, hnew, List.append_assoc]⟩

theorem lookup_concat_of_some {entries : List (String × String)} {key value : String}
    (h : entries.lookup key = some value) (entry : String × String) :
    (entries ++ [entry]).lookup key = some value := by
  rw [List.lookup_append, h, Option.some_or]

theorem lookup_concat_of_none {entries : List (String × String)} {key : String}
    (h : entries.lookup key = none) (value : String) :
    (entries ++ [(key, value)]).lookup key = some value := by
  rw [List.lookup_append, h, Option.none_or, List.lookup_cons_self]

theorem lookup_concat_of_ne (entries : List (String × String)) {key other : String} (value : String)
    (h : key ≠ other) : (entries ++ [(key, value)]).lookup other = entries.lookup other := by
  have hne : (other == key) = false := by simpa using h.symm
  simp [List.lookup_append, List.lookup_cons, hne]

theorem lookup_reverse_concat_self (writes : List (String × String)) (field sql : String) :
    (writes ++ [(field, sql)]).reverse.lookup field = some sql := by
  simp

theorem lookup_reverse_concat_of_ne (writes : List (String × String)) {field other : String}
    (sql : String) (h : field ≠ other) :
    (writes ++ [(field, sql)]).reverse.lookup other = writes.reverse.lookup other := by
  have hne : (other == field) = false := by simpa using h.symm
  simp [List.lookup_cons, hne]

end History

/-! ### What a view shows -/

namespace Scope

variable {s : QueryState} {writes : List (String × String)} {view : Scope} {j : Journal}
  {js : List Journal}

/-- A view reads what the journals from its own on tell, and the expressions of the state unless one of
these journals is detached. -/
structure Shows (s : QueryState) (writes : List (String × String)) (view : Scope) (js : List Journal) :
    Prop where
  selection : ∀ field, view.selection? field = History.lastWrite writes js field
  cteName : ∀ field, view.cteName? field =
    if .detached ∈ js.map Journal.kind then none else s.cteName? field

theorem selection?_nested (view : Scope) (field : String) :
    view.nested.selection? field = view.selection? field := rfl

theorem Shows.nested (h : Shows s writes view js) : Shows s writes view.nested (⟨.nested, []⟩ :: js) where
  selection field := by
    rw [selection?_nested, h.selection]
    simp [History.lastWrite]
  cteName field := by
    refine (h.cteName field).trans ?_
    simp

theorem shows_detached : Shows s writes .detached (⟨.detached, []⟩ :: js) where
  selection field := rfl
  cteName field := by
    rw [if_pos (by simp)]
    rfl

theorem Shows.setSelection (h : Shows s writes view (j :: js)) (field sql : String) :
    Shows s writes (view.setSelection field sql)
      ({ j with writes := j.writes ++ [(field, sql)] } :: js) where
  selection other := by
    by_cases heq : field = other
    · rw [← heq, selection?_setSelection_self, History.lastWrite, History.lookup_reverse_concat_self]
      rfl
    · rw [selection?_setSelection_of_ne _ _ heq, h.selection, History.lastWrite, History.lastWrite,
        History.lookup_reverse_concat_of_ne _ _ heq]
  cteName other := by
    rw [cteName?_setSelection, h.cteName]
    rfl

end Scope

/-! ### One step -/

/-- The state holds the first registration and the last write of each field, in the order in which the
fields first came. -/
structure QueryState.Reflects (s : QueryState) (registrations writes : List (String × String)) :
    Prop where
  cteName : ∀ field, s.cteName? field = registrations.lookup field
  registered : s.ctes.map Prod.fst = unionNew [] (registrations.map Prod.fst)
  selection : ∀ field, s.selection? field = writes.reverse.lookup field
  written : s.selections.map Prod.fst = unionNew [] (writes.map Prod.fst)

namespace QueryState

variable {s : QueryState} {registrations writes : List (String × String)} {field cte : String}

/-- A registration fails exactly when the field has another expression. -/
theorem registerCte_eq_error_iff {e : CompileError} :
    s.registerCte field cte = .error e ↔
      ∃ existing, s.cteName? field = some existing ∧ existing ≠ cte ∧
        e = .cteConflict field existing cte := by
  unfold QueryState.registerCte
  cases hname : s.cteName? field with
  | none => simp
  | some existing =>
      by_cases heq : existing = cte
      · simp [heq]
      · simp only [if_neg heq]
        constructor
        · intro herror
          cases herror
          exact ⟨existing, rfl, heq, rfl⟩
        · rintro ⟨other, hother, -, rfl⟩
          cases hother
          rfl

theorem unionNew_map_concat (entries : List (String × String)) (key value : String) :
    unionNew [] ((entries ++ [(key, value)]).map Prod.fst) =
      insertNew (unionNew [] (entries.map Prod.fst)) key := by
  simp [unionNew]

/-- A registration of a field that is registered changes nothing. -/
theorem Reflects.register_known (hs : s.Reflects registrations writes) {existing : String}
    (hname : s.cteName? field = some existing) (cte : String) :
    s.Reflects (registrations ++ [(field, cte)]) writes where
  cteName other := by
    by_cases heq : field = other
    · rw [← heq, hname, History.lookup_concat_of_some ((hs.cteName field).symm.trans hname)]
    · rw [hs.cteName, History.lookup_concat_of_ne _ _ heq]
  registered := by
    have hmem : field ∈ s.ctes.map Prod.fst := List.mem_map_of_mem (mem_of_cteName? hname)
    rw [unionNew_map_concat, ← hs.registered]
    exact (if_pos hmem).symm
  selection := hs.selection
  written := hs.written

/-- A registration of a new field adds it at the end. -/
theorem Reflects.register_new (hs : s.Reflects registrations writes)
    (hname : s.cteName? field = none) (cte : String) :
    { s with ctes := s.ctes.insert field cte }.Reflects (registrations ++ [(field, cte)]) writes where
  cteName other := by
    by_cases heq : field = other
    · rw [← heq, History.lookup_concat_of_none ((hs.cteName field).symm.trans hname)]
      exact Entries.get?_insert_self ..
    · rw [History.lookup_concat_of_ne _ _ heq, ← hs.cteName]
      exact Entries.get?_insert_of_ne _ _ heq
  registered := by
    rw [unionNew_map_concat, ← hs.registered]
    exact Entries.keys_insert ..
  selection := hs.selection
  written := hs.written

theorem Reflects.setSelection (hs : s.Reflects registrations writes) (field sql : String) :
    (s.setSelection field sql).Reflects registrations (writes ++ [(field, sql)]) where
  cteName := hs.cteName
  registered := hs.registered
  selection other := by
    by_cases heq : field = other
    · rw [← heq, History.lookup_reverse_concat_self]
      exact Entries.get?_insert_self ..
    · rw [History.lookup_reverse_concat_of_ne _ _ heq, ← hs.selection]
      exact Entries.get?_insert_of_ne _ _ heq
  written := by
    rw [unionNew_map_concat, ← hs.written]
    exact Entries.keys_insert ..

end QueryState

namespace Views

variable {v w : Views} {h : History} {state : QueryState} {action : StateAction} {field cte : String}

/-- Open views with their journals: each of them shows its own journal and those around it. -/
inductive Stacked (s : QueryState) (writes : List (String × String)) :
    List Scope → List Journal → Prop where
  | nil : Stacked s writes [] []
  | cons {view : Scope} {outer : List Scope} {j : Journal} {js : List Journal} :
      view.Shows s writes (j :: js) → Stacked s writes outer js →
        Stacked s writes (view :: outer) (j :: js)

theorem Stacked.shows {s : QueryState} {writes : List (String × String)} {views : List Scope}
    {js : List Journal} (h : Stacked s writes views js) (hscope : s.scope.Shows s writes []) (k : Nat) :
    ((views[k]?).getD s.scope).Shows s writes (js.drop k) := by
  induction h generalizing k with
  | nil => simpa using hscope
  | cons hshows _ ih =>
      cases k with
      | zero => exact hshows
      | succ k => simpa using ih k

/-- The state and its views are those that the history tells of. -/
structure Reflects (v : Views) (h : History) : Prop where
  state : v.state.Reflects h.registrations h.writes
  views : Stacked v.state h.writes v.opened h.journals

theorem reflects_start : Reflects {} {} := ⟨⟨fun _ => rfl, rfl, fun _ => rfl, rfl⟩, .nil⟩

/-- The view outside the innermost `k` ones shows the journals outside the innermost `k` ones. -/
theorem Reflects.shows (hv : v.Reflects h) (k : Nat) :
    (v.view k).Shows v.state h.writes (h.journals.drop k) := by
  refine hv.views.shows ⟨fun field => ?_, fun field => by simp⟩ k
  rw [QueryState.selection?_scope, hv.state.selection]
  rfl

/-- A field that is registered stays as it is, whether the registration is repeated or fails. -/
theorem step?_registerCte_of_some {existing : String} (hname : state.cteName? field = some existing) :
    step? ⟨state, []⟩ (.registerCte field cte) = some ⟨state, []⟩ := by
  by_cases heq : existing = cte <;> simp [step?, QueryState.registerCte, hname, heq]

theorem step?_registerCte_of_none (hname : state.cteName? field = none) :
    step? ⟨state, []⟩ (.registerCte field cte) =
      some ⟨{ state with ctes := state.ctes.insert field cte }, []⟩ := by
  simp [step?, QueryState.registerCte, hname]

/-- **One step of a run is one line in its history.** -/
theorem reflects_of_step (hv : v.Reflects h) (hstep : v.step? action = some w) :
    w.Reflects (h.record action) := by
  obtain ⟨state, opened⟩ := v
  obtain ⟨registrations, writes, journals⟩ := h
  obtain ⟨hstate, hviews⟩ := id hv
  dsimp only at hstate hviews
  cases action with
  | registerCte field cte =>
      cases hviews with
      | nil =>
          cases hname : state.cteName? field with
          | some existing =>
              cases (step?_registerCte_of_some hname).symm.trans hstep
              exact ⟨hstate.register_known hname cte, .nil⟩
          | none =>
              cases (step?_registerCte_of_none hname).symm.trans hstep
              exact ⟨hstate.register_new hname cte, .nil⟩
      | cons hshows houter => cases hstep
  | setSelection field sql =>
      cases hviews with
      | nil =>
          cases hstep
          exact ⟨hstate.setSelection field sql, .nil⟩
      | cons hshows houter =>
          cases hstep
          exact ⟨hstate, .cons (hshows.setSelection field sql) houter⟩
  | enter kind =>
      cases kind with
      | nested =>
          cases hstep
          exact ⟨hstate, .cons (hv.shows 0).nested hviews⟩
      | detached =>
          cases hstep
          exact ⟨hstate, .cons Scope.shows_detached hviews⟩
  | leave =>
      cases hviews with
      | nil => cases hstep
      | cons hshows houter =>
          cases hstep
          exact ⟨hstate, houter⟩

theorem reflects_of_run {actions : List StateAction} (hv : v.Reflects h)
    (hrun : v.run? actions = some w) : w.Reflects (actions.foldl History.record h) := by
  induction actions generalizing v h with
  | nil =>
      cases hrun
      exact hv
  | cons action rest ih =>
      obtain ⟨next, hstep, hrest⟩ := run?_cons_eq_some.1 hrun
      exact ih (reflects_of_step hv hstep) hrest

/-! ### Inside a view -/

/-- The actions stay inside the innermost view, in which `depth` further ones are open. -/
def staysInside : Nat → List StateAction → Bool
  | _, [] => true
  | depth, .enter _ :: rest => staysInside (depth + 1) rest
  | 0, .leave :: _ => false
  | depth + 1, .leave :: rest => staysInside depth rest
  | depth, .setSelection .. :: rest | depth, .registerCte .. :: rest => staysInside depth rest

/-- **A body that stays inside its view** touches nothing outside: neither the state nor the views around
it have changed, at whatever moment it is looked at. -/
theorem run_stays {actions : List StateAction} {depth : Nat} {inner outer : List Scope}
    (hdepth : inner.length = depth + 1) (hstays : staysInside depth actions = true)
    (hrun : run? ⟨state, inner ++ outer⟩ actions = some w) :
    w.state = state ∧ ∃ inner', inner' ≠ [] ∧ w.opened = inner' ++ outer := by
  induction actions generalizing depth inner with
  | nil =>
      cases hrun
      exact ⟨rfl, inner, List.ne_nil_of_length_eq_add_one hdepth, rfl⟩
  | cons action rest ih =>
      obtain ⟨next, hstep, hrest⟩ := run?_cons_eq_some.1 hrun
      obtain ⟨view, inner, rfl⟩ := List.exists_cons_of_length_eq_add_one hdepth
      cases action with
      | registerCte field cte => cases hstep
      | setSelection field sql =>
          cases hstep
          have hlength : (view.setSelection field sql :: inner).length = depth + 1 := hdepth
          exact ih hlength hstays hrest
      | enter kind =>
          obtain ⟨first, hnext⟩ : ∃ first, next = ⟨state, first :: view :: inner ++ outer⟩ := by
            cases kind with
            | nested => exact ⟨_, (Option.some.inj hstep).symm⟩
            | detached => exact ⟨_, (Option.some.inj hstep).symm⟩
          rw [hnext] at hrest
          have hlength : (first :: view :: inner).length = depth + 1 + 1 := by simpa using hdepth
          exact ih hlength hstays hrest
      | leave =>
          cases hstep
          cases depth with
          | zero => cases hstays
          | succ depth => exact ih (Nat.succ.inj hdepth) hstays hrest

/-- What is done inside a view leaves the state and the views around it as they are, and once the view is
left, everything is as it was before it was entered. -/
theorem run_enter_stays {kind : ViewKind} {body : List StateAction}
    (hstays : staysInside 0 body = true) (hrun : v.run? (.enter kind :: body) = some w) :
    w.state = v.state ∧ ∃ inner, inner ≠ [] ∧ w.opened = inner ++ v.opened ∧
      (inner.length = 1 → w.step? .leave = some v) := by
  obtain ⟨next, hstep, hbody⟩ := run?_cons_eq_some.1 hrun
  obtain ⟨first, hnext⟩ : ∃ first, next = ⟨v.state, [first] ++ v.opened⟩ := by
    cases kind with
    | nested => exact ⟨_, (Option.some.inj hstep).symm⟩
    | detached => exact ⟨_, (Option.some.inj hstep).symm⟩
  rw [hnext] at hbody
  obtain ⟨hstate, inner, hne, hopened⟩ := run_stays rfl hstays hbody
  refine ⟨hstate, inner, hne, hopened, fun hlength => ?_⟩
  obtain ⟨last, rfl⟩ := List.length_eq_one_iff.1 hlength
  obtain ⟨state, opened⟩ := w
  cases hstate
  cases hopened
  rfl

/-! ### Runs -/

/-- A field keeps its expression for the rest of the run. -/
theorem Reflects.cteName?_kept (hv : v.Reflects h) {actions : List StateAction}
    (hrun : v.run? actions = some w) (hname : v.state.cteName? field = some cte) :
    w.state.cteName? field = some cte := by
  obtain ⟨more, hmore⟩ := History.registrations_foldl_record h actions
  rw [(reflects_of_run hv hrun).state.cteName, hmore, List.lookup_append, ← hv.state.cteName, hname,
    Option.some_or]

/-- What a state and its open views owe to the history of a run. -/
structure Accounts (v : Views) (h : History) : Prop where
  /-- Everything can be done, but for a registration inside a view and for leaving where no view is
  open. -/
  possible : ∀ action, v.step? action = none ↔
    (∃ field cte, action = .registerCte field cte ∧ v.opened ≠ []) ∨ action = .leave ∧ v.opened = []
  /-- A field has the expression that it was first registered with. -/
  cteName : ∀ field, v.state.cteName? field = h.registrations.lookup field
  /-- It keeps this expression, whatever is done afterwards. -/
  kept : ∀ actions w field cte, v.run? actions = some w → v.state.cteName? field = some cte →
    w.state.cteName? field = some cte
  /-- A registration fails exactly when the field has another expression. -/
  conflict : ∀ field cte e, v.state.registerCte field cte = .error e ↔
    ∃ existing, v.state.cteName? field = some existing ∧ existing ≠ cte ∧
      e = .cteConflict field existing cte
  /-- A registration that fails or is repeated changes nothing. -/
  unchanged : ∀ field cte, v.opened = [] → v.state.cteName? field ≠ none →
    v.step? (.registerCte field cte) = some v
  /-- The state has the last selection that was written to it. -/
  stateSelection : ∀ field, v.state.selection? field = h.writes.reverse.lookup field
  /-- Each view has the last selection of the innermost one, from itself outwards, that wrote the
  field. -/
  selection : ∀ k field,
    (v.view k).selection? field = History.lastWrite h.writes (h.journals.drop k) field
  /-- Each view sees the expressions of the state, unless it or one around it is detached. -/
  carried : ∀ k field, (v.view k).cteName? field =
    if .detached ∈ (h.journals.drop k).map Journal.kind then none else v.state.cteName? field
  /-- A detached view has nothing but what was written in it. -/
  detached : ∀ k j field, h.journals[k]? = some j → j.kind = .detached →
    (v.view k).cteName? field = none ∧ (v.view k).selection? field = j.writes.reverse.lookup field
  /-- What is done in a view changes neither the state nor the views around it. -/
  isolated : ∀ kind body w, staysInside 0 body = true → v.run? (.enter kind :: body) = some w →
    w.state = v.state ∧ ∃ inner, inner ≠ [] ∧ w.opened = inner ++ v.opened ∧
      (inner.length = 1 → w.step? .leave = some v)
  /-- Fields are listed in the order of their first registration. -/
  registered : v.state.ctes.map Prod.fst = unionNew [] (h.registrations.map Prod.fst)
  /-- Fields are listed in the order of their first selection. -/
  written : v.state.selections.map Prod.fst = unionNew [] (h.writes.map Prod.fst)

/-- **Every run accounts for what is seen.** -/
theorem run_accounts {actions : List StateAction} (hrun : run? {} actions = some v) :
    v.Accounts (History.of actions) := by
  have hv : v.Reflects (History.of actions) := reflects_of_run reflects_start hrun
  refine
    { possible := fun _ => step?_eq_none_iff
      cteName := hv.state.cteName
      kept := fun _ _ _ _ hrest hname => hv.cteName?_kept hrest hname
      conflict := fun _ _ _ => QueryState.registerCte_eq_error_iff
      unchanged := ?_
      stateSelection := hv.state.selection
      selection := fun k => (hv.shows k).selection
      carried := fun k => (hv.shows k).cteName
      detached := ?_
      isolated := fun _ _ _ hstays hbody => run_enter_stays hstays hbody
      registered := hv.state.registered
      written := hv.state.written }
  · intro field cte hopened hname
    obtain ⟨state, opened⟩ := v
    cases hopened
    obtain ⟨existing, hexisting⟩ := Option.ne_none_iff_exists'.1 hname
    exact step?_registerCte_of_some hexisting
  · intro k j field hj hkind
    have hdrop : (History.of actions).journals.drop k =
        j :: (History.of actions).journals.drop (k + 1) := by
      obtain ⟨hk, hget⟩ := List.getElem?_eq_some_iff.1 hj
      rw [List.drop_eq_getElem_cons hk, hget]
    have hshows := hv.shows k
    rw [hdrop] at hshows
    rw [hshows.cteName, hshows.selection, History.lastWrite, hkind]
    simp [hkind]

end Views

/-! ### A run with nested views -/

namespace Sample

/-- A field is registered twice, selections are overwritten, and two views are open, of which the inner
one is detached. -/
def nestedRun : List StateAction :=
  [.registerCte "a" "CTE_a", .registerCte "a" "CTE_b", .setSelection "a" "1", .setSelection "b" "2",
   .setSelection "a" "3", .enter .nested, .setSelection "a" "NULL", .enter .detached,
   .setSelection "b" "4"]

/-- What is left of the run. -/
def nestedViews : Views where
  state := ⟨[("a", "CTE_a")], [("a", "3"), ("b", "2")]⟩
  opened :=
    [⟨[], [[("b", "4")]]⟩, ⟨[("a", "CTE_a")], [[("a", "NULL")], [("a", "3"), ("b", "2")]]⟩]

end Sample

namespace Views

/-- The detached view does not see the field `a`, and the view around it sees both fields. -/
theorem run_accounts_nested :
    run? {} Sample.nestedRun = some Sample.nestedViews ∧
      Sample.nestedViews.Accounts (History.of Sample.nestedRun) ∧
      (Sample.nestedViews.view 0).selection? "a" = none ∧
      (Sample.nestedViews.view 1).selection? "a" = some "NULL" ∧
      (Sample.nestedViews.view 1).selection? "b" = some "2" := by
  have hrun : run? {} Sample.nestedRun = some Sample.nestedViews := by decide
  have haccounts := run_accounts hrun
  exact ⟨hrun, haccounts, (haccounts.selection 0 "a").trans (by decide),
    (haccounts.selection 1 "a").trans (by decide), (haccounts.selection 1 "b").trans (by decide)⟩

end Views

end ComputedFields
