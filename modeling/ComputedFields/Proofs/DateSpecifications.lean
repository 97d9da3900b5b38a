/-
**Date templates as rows of parts.**

The other database formats a date after a specification, in which a letter behind a percent sign stands for
a part of the date.  There is no letter for every token, so a template becomes a row of parts that are
joined: specifications, as long as they go, and between them the tokens that are computed.  Percent signs
of the template are written twice.

Each part of the row is read by its own rule.  A specification is put together from pieces that can be read
whatever follows them, so it does not matter where one piece ends and the next begins, and the row shows
the template as it is.

Main definitions:

* `ComputedFields.readSpec` — what a specification shows;
* `ComputedFields.shownParts?` — what a date after a template shows in SQL, part by part.

Main results:

* `ComputedFields.showParts_formatParts` — the parts of a template show the template;
* `ComputedFields.Target.formatDate_shows` — **a date after a template shows the template**.
-/

import ComputedFields.Proofs.DatePatterns

set_option relaxedAutoImplicit false
set_option autoImplicit false

namespace ComputedFields

/-! ### Reading specifications -/

/-- The token that a letter behind a percent sign stands for. -/
def DateToken.ofSpec? : Char → Option DateToken
  | 'Y' => some .year
  | 'm' => some .paddedMonth
  | 'd' => some .paddedDay
  | 'H' => some .paddedHour
  | 'M' => some .minute
  | 'S' => some .second
  | _ => none

/-- What a specification shows, if every percent sign in it is followed by another one or by a letter. -/
def readSpec : List Char → Option (List DateSymbol)
  | [] => some []
  | '%' :: [] => none
  | '%' :: '%' :: rest => (readSpec rest).map (.char '%' :: ·)
  | '%' :: c :: rest => (DateToken.ofSpec? c).bind fun t => (readSpec rest).map (.token t :: ·)
  | c :: rest => (readSpec rest).map (.char c :: ·)

/-- **A text is read from a specification as it is**, whatever follows. -/
theorem readSpec_escapePercent (text rest : List Char) :
    readSpec (escapePercent text ++ rest) = (readSpec rest).map (text.map .char ++ ·) := by
  induction text with
  | nil => simp [escapePercent]
  | cons c text ih =>
      by_cases hc : c = '%'
      · simp [escapePercent, hc, readSpec, ih, Function.comp_def]
      · simp [escapePercent, hc, readSpec, ih, Function.comp_def]

/-- **A token is read from its specification**, whatever follows. -/
theorem readSpec_token {t : DateToken} {spec : String} (h : t.spec? = some spec) (rest : List Char) :
    readSpec (spec.toList ++ rest) = (readSpec rest).map (.token t :: ·) := by
  cases t <;> cases h <;> rfl

/-- What a part shows.  Only a token without a specification is computed. -/
def FormatPart.shown? : FormatPart → Option (List DateSymbol)
  | .spec text => readSpec text
  | .computed t => if t.spec? = none then some [.token t] else none

/-- A piece is a token that has to be computed, or a specification that can be read on its own. -/
theorem FormatPart.ofPiece_cases (piece : Piece) :
    (∃ t, piece = .token t ∧ t.spec? = none ∧ FormatPart.ofPiece piece = .computed t) ∨
      ∃ spec, FormatPart.ofPiece piece = .spec spec ∧
        ∀ rest, readSpec (spec ++ rest) = (readSpec rest).map (piece.symbols ++ ·) := by
  cases piece with
  | literal text => exact .inr ⟨escapePercent text, rfl, readSpec_escapePercent text⟩
  | token t =>
      cases hspec : t.spec? with
      | none => exact .inl ⟨t, rfl, hspec, by rw [FormatPart.ofPiece, hspec]⟩
      | some spec =>
          exact .inr ⟨spec.toList, by rw [FormatPart.ofPiece, hspec], readSpec_token hspec⟩

/-- The parts show the symbols, part by part. -/
def ShowParts (parts : List FormatPart) (symbols : List DateSymbol) : Prop :=
  ∃ shown : List (List DateSymbol),
    List.Forall₂ (fun part s => FormatPart.shown? part = some s) parts shown ∧ shown.flatten = symbols

/-- A part in front shows its symbols in front. -/
theorem ShowParts.cons {part : FormatPart} {s : List DateSymbol} {parts : List FormatPart}
    {symbols : List DateSymbol} (hpart : part.shown? = some s) (h : ShowParts parts symbols) :
    ShowParts (part :: parts) (s ++ symbols) := by
  obtain ⟨shown, hshown, rfl⟩ := h
  exact ⟨s :: shown, .cons hpart hshown, rfl⟩

/-- **A piece in front shows its symbols in front**, also where it goes into the specification that stands
there. -/
theorem ShowParts.prepend {parts : List FormatPart} {symbols : List DateSymbol}
    (h : ShowParts parts symbols) (piece : Piece) :
    ShowParts ((FormatPart.ofPiece piece).prepend parts) (piece.symbols ++ symbols) := by
  rcases FormatPart.ofPiece_cases piece with ⟨t, rfl, hspec, hpart⟩ | ⟨spec, hpart, hread⟩
  · rw [hpart]
    exact h.cons (if_pos hspec)
  · have hspec : FormatPart.shown? (.spec spec) = some piece.symbols := by
      have hend := hread []
      rwa [List.append_nil, readSpec, Option.map_some, List.append_nil] at hend
    rw [hpart]
    cases parts with
    | nil => exact h.cons hspec
    | cons other parts =>
        cases other with
        | computed t => exact h.cons hspec
        | spec text =>
            obtain ⟨shown, hshown, rfl⟩ := h
            cases hshown with
            | @cons _ s _ shown hs hshown =>
                refine ⟨(piece.symbols ++ s) :: shown, .cons ?_ hshown, by simp⟩
                change readSpec (spec ++ text) = _
                rw [hread, show readSpec text = some s from hs, Option.map_some]

/-- **The parts of a template show the template.** -/
theorem showParts_formatParts (template : String) :
    ShowParts (formatParts template) (templateSymbols template) := by
  unfold formatParts templateSymbols
  induction pieces template with
  | nil => exact ⟨[], .nil, rfl⟩
  | cons piece ps ih =>
      rw [List.foldr_cons, List.flatMap_cons]
      exact ih.prepend piece

/-! #### Parts in SQL -/

open Sql (Expr)

/-- The date that a part in SQL is taken from, and what of it is shown. -/
def shownPart? : Expr → Option (Expr × List DateSymbol)
  | .call "STRFTIME" [.text spec, value] => (readSpec spec.toList).map (value, ·)
  | .call "SUBSTR" [.call "STRFTIME" [.text "%Y", value], .number "3"] =>
      some (value, [.token .shortYear])
  | .call "SUBSTR" [.call "STRFTIME" [.text "%f", value], .number "4"] =>
      some (value, [.token .milliseconds])
  | .cast (.cast (.call "STRFTIME" [.text "%m", value]) "INTEGER") "TEXT" =>
      some (value, [.token .month])
  | .cast (.cast (.call "STRFTIME" [.text "%d", value]) "INTEGER") "TEXT" =>
      some (value, [.token .day])
  | .cast (.cast (.call "STRFTIME" [.text "%H", value]) "INTEGER") "TEXT" =>
      some (value, [.token .hour])
  | .case [(.binary (.cast (.call "STRFTIME" [.text "%H", value]) "INTEGER") .lt (.number "12"),
      .text "AM")] (some (.text "PM")) => some (value, [.token .halfDay])
  | _ => none

/-- The parts that are joined in SQL. -/
def joinedParts : Expr → List Expr
  | .text "" => []
  | .chain .concat parts => parts
  | part => [part]

/-- What a date after a template shows in SQL, part by part. -/
def shownParts? (e : Expr) : Option (List (Expr × List DateSymbol)) := (joinedParts e).mapM shownPart?

namespace Target

theorem shownPart?_formatPart {part : FormatPart} {s : List DateSymbol} (h : part.shown? = some s)
    (value : Expr) : shownPart? (formatPart value part) = some (value, s) := by
  cases part with
  | spec text =>
      change (readSpec (String.ofList text).toList).map (value, ·) = _
      rw [String.toList_ofList, show readSpec text = some s from h]
      rfl
  | computed t => cases t <;> cases h <;> rfl

theorem joinedParts_joinParts (value : Expr) (parts : List FormatPart) :
    joinedParts (joinParts (parts.map (formatPart value))) = parts.map (formatPart value) := by
  match parts with
  | [] => rfl
  | [.spec _] => rfl
  | [.computed t] => cases t <;> rfl
  | _ :: _ :: _ => rfl

theorem shownParts?_joinParts {parts : List FormatPart} {shown : List (List DateSymbol)}
    (h : List.Forall₂ (fun part s => FormatPart.shown? part = some s) parts shown) (value : Expr) :
    shownParts? (joinParts (parts.map (formatPart value))) = some (shown.map (value, ·)) := by
  rw [shownParts?, joinedParts_joinParts]
  induction h with
  | nil => rfl
  | cons hpart _ ih => simp [shownPart?_formatPart hpart, ih]

/-- **A date after a template shows the template.**  The parts that are joined are all taken from the given
date, and one after the other they show the tokens of the template and the text between them. -/
theorem formatDate_shows (t : Target) (ht : t.dialect = .sqlite) (f : Fragment) (template : String) :
    ∃ shown, shownParts? (t.formatDate f template) = some shown ∧ (∀ part ∈ shown, part.1 = f.expr) ∧
      shown.flatMap Prod.snd = templateSymbols template := by
  obtain ⟨shown, hshown, hsymbols⟩ := showParts_formatParts template
  refine ⟨shown.map (f.expr, ·), ?_, ?_, ?_⟩
  · simp only [formatDate, ht]
    exact shownParts?_joinParts hshown f.expr
  · simp
  · rw [List.flatMap_map, ← hsymbols]
    simp

/-- A percent sign before a token, a token that is computed, and a text that looks like a
specification. -/
theorem formatDate_shows_discount :
    let t : Target := { dialect := .sqlite, mode := .select, now := ⟨0⟩ }
    let f : Fragment := .dateTime (.column none "due")
    t.dialect = .sqlite ∧ ∃ shown, shownParts? (t.formatDate f "5%YYYY-M %d") = some shown ∧
      (∀ part ∈ shown, part.1 = f.expr) ∧
      shown.flatMap Prod.snd = [.char '5', .char '%', .token .year, .char '-', .token .month, .char ' ',
        .char '%', .char 'd'] :=
  ⟨rfl, formatDate_shows _ rfl _ _⟩

end Target

end ComputedFields
