/-
**How a template is cut into pieces.**

A template is cut from left to right.  Where a token matches, it is cut off, and of several that match the
first one of the list counts; everything else is literal text.  Tokens begin like other tokens, and runs of
one letter can be longer than any token, so the same letters can be cut in several ways.  `YYYY` could be a
short year between two letters, if it were not for the rule that a token is taken as early as it can be.

This rule is the invariant of the cut: no token matches at any character of a literal, not even one that
ends behind the literal.  It says more than that the literal contains no token, and it is what makes the
pieces of a template the only ones.

Main definitions:

* `ComputedFields.Piece.written`, `ComputedFields.written` — the characters of pieces;
* `ComputedFields.DateToken.FirstAt` — the first token of the list that matches at a text;
* `ComputedFields.TemplateCut` — the pieces are a cut of the text.

Main results:

* `ComputedFields.templateCut_piecesAfter` — a template is cut into its pieces;
* `ComputedFields.TemplateCut.eq_piecesAfter` — there is no other cut;
* `ComputedFields.pieces_cut` — **the pieces of a template are its only cut**.
-/

import ComputedFields.Proofs.DatePatterns

set_option relaxedAutoImplicit false
set_option autoImplicit false

namespace ComputedFields

/-! ### Characters of pieces -/

/-- The characters of a piece. -/
def Piece.written : Piece → List Char
  | .literal text => text
  | .token t => t.spelling.toList

/-- The characters of pieces, one after the other. -/
def written (ps : List Piece) : List Char := ps.flatMap Piece.written

@[simp] theorem written_nil : written [] = [] := rfl

@[simp] theorem written_cons (piece : Piece) (ps : List Piece) :
    written (piece :: ps) = piece.written ++ written ps := rfl

/-- The piece is literal text. -/
def Piece.IsLiteral : Piece → Prop
  | .literal _ => True
  | .token _ => False

/-! ### The token at a place -/

namespace DateToken

/-- The token matches at the beginning of the text, and no token before it in the list does. -/
def FirstAt (text : List Char) (t : DateToken) : Prop :=
  t.spelling.toList <+: text ∧
    ∃ before after, all = before ++ t :: after ∧ ∀ u ∈ before, ¬ u.spelling.toList <+: text

example : all.map spelling =
    ["YYYY", "YY", "SSS", "MM", "DD", "HH", "mm", "ss", "M", "D", "H", "A"] := rfl

theorem mem_all (t : DateToken) : t ∈ all := by
  cases t <;> decide

theorem at?_eq_some_iff {text : List Char} {t : DateToken} : at? text = some t ↔ FirstAt text t := by
  unfold at? FirstAt
  simp only [List.find?_eq_some_iff_append, List.isPrefixOf_iff_prefix, Bool.not_eq_true']
  simp only [← Bool.not_eq_true, List.isPrefixOf_iff_prefix]

theorem at?_eq_none_iff {text : List Char} :
    at? text = none ↔ ∀ t : DateToken, ¬ t.spelling.toList <+: text := by
  unfold at?
  simp only [List.find?_eq_none, List.isPrefixOf_iff_prefix]
  exact ⟨fun h t => h t (mem_all t), fun h t _ => h t⟩

/-- A token has at least one letter. -/
theorem exists_spelling_eq_cons (t : DateToken) :
    ∃ c rest, t.spelling.toList = c :: rest ∧ rest.length = t.spelling.length - 1 := by
  cases t <;> exact ⟨_, _, rfl, rfl⟩

end DateToken

/-! ### Cuts -/

/-- The pieces are a cut of the text. -/
structure TemplateCut (text : List Char) (ps : List Piece) : Prop where
  /-- Nothing is lost or added. -/
  joined : written ps = text
  /-- A literal has at least one character. -/
  filled : ∀ literal, .literal literal ∈ ps → literal ≠ []
  /-- No token stands inside a literal. -/
  tokenFree : ∀ literal, .literal literal ∈ ps → ∀ t : DateToken, ¬ t.spelling.toList <:+: literal
  /-- Literals are as long as can be. -/
  apart : ps.IsChain fun p q => ¬ (p.IsLiteral ∧ q.IsLiteral)
  /-- A token is the first of the list that matches at its place. -/
  first : ∀ t after, .token t :: after <:+ ps → DateToken.FirstAt (written (.token t :: after)) t
  /-- A token is taken as early as it can be: none begins inside a literal, wherever it ends. -/
  leftmost : ∀ literal after, .literal literal :: after <:+ ps →
    ∀ tail, tail <:+ literal → tail ≠ [] → ∀ t : DateToken, ¬ t.spelling.toList <+: tail ++ written after

/-- A token inside a text matches at one of its characters. -/
theorem DateToken.exists_tail_of_infix {t : DateToken} {literal : List Char}
    (h : t.spelling.toList <:+: literal) :
    ∃ tail, tail <:+ literal ∧ tail ≠ [] ∧ t.spelling.toList <+: tail := by
  obtain ⟨tail, hbegins, htail⟩ := List.infix_iff_prefix_suffix.1 h
  refine ⟨tail, htail, ?_, hbegins⟩
  rintro rfl
  obtain ⟨c, rest, hchars, -⟩ := t.exists_spelling_eq_cons
  rw [hchars] at hbegins
  exact absurd (List.prefix_nil.1 hbegins) (List.cons_ne_nil c rest)

theorem templateCut_nil : TemplateCut [] [] where
  joined := rfl
  filled _ h := nomatch h
  tokenFree _ h := nomatch h
  apart := .nil
  first _ _ h := nomatch List.suffix_nil.1 h
  leftmost _ _ h := nomatch List.suffix_nil.1 h

/-- The pieces behind the first one are a cut of what is left of the text. -/
theorem TemplateCut.tail {text : List Char} {piece : Piece} {ps : List Piece}
    (h : TemplateCut text (piece :: ps)) :
    TemplateCut (written ps) ps where
  joined := rfl
  filled literal hmem := h.filled literal (List.mem_cons_of_mem _ hmem)
  tokenFree literal hmem := h.tokenFree literal (List.mem_cons_of_mem _ hmem)
  apart := h.apart.tail
  first t after hsuffix := h.first t after (hsuffix.trans (List.suffix_cons _ _))
  leftmost literal after hsuffix := h.leftmost literal after (hsuffix.trans (List.suffix_cons _ _))

/-- A cut that begins with a token. -/
theorem templateCut_token_iff {text : List Char} {t : DateToken} {ps : List Piece} :
    TemplateCut text (.token t :: ps) ↔
      text = t.spelling.toList ++ written ps ∧ DateToken.FirstAt text t ∧ TemplateCut (written ps) ps := by
  constructor
  · intro h
    obtain rfl := h.joined
    exact ⟨rfl, h.first t ps (List.suffix_refl _), h.tail⟩
  · rintro ⟨rfl, hfirst, h⟩
    exact
      { joined := rfl
        filled := fun literal hmem => h.filled literal (by simpa using hmem)
        tokenFree := fun literal hmem => h.tokenFree literal (by simpa using hmem)
        apart := List.isChain_cons.2 ⟨fun _ _ hboth => hboth.1, h.apart⟩
        first := fun u after hsuffix => by
          rcases List.suffix_cons_iff.1 hsuffix with heq | hsuffix
          · cases heq
            exact hfirst
          · exact h.first u after hsuffix
        leftmost := fun literal after hsuffix => by
          rcases List.suffix_cons_iff.1 hsuffix with heq | hsuffix
          · cases heq
          · exact h.leftmost literal after hsuffix }

/-- A cut that begins with a literal. -/
theorem templateCut_literal_iff {text literal : List Char} {ps : List Piece} :
    TemplateCut text (.literal literal :: ps) ↔
      text = literal ++ written ps ∧ literal ≠ [] ∧ (∀ piece ∈ ps.head?, ¬ piece.IsLiteral) ∧
        (∀ tail, tail <:+ literal → tail ≠ [] →
          ∀ t : DateToken, ¬ t.spelling.toList <+: tail ++ written ps) ∧
        TemplateCut (written ps) ps := by
  constructor
  · intro h
    obtain rfl := h.joined
    refine ⟨rfl, h.filled literal List.mem_cons_self, fun piece hpiece hliteral => ?_,
      h.leftmost literal ps (List.suffix_refl _), h.tail⟩
    exact (List.isChain_cons.1 h.apart).1 piece hpiece ⟨trivial, hliteral⟩
  · rintro ⟨rfl, hne, hhead, hleft, h⟩
    -- A token inside the literal would match at one of its characters.
    have hfree : ∀ t : DateToken, ¬ t.spelling.toList <:+: literal := by
      intro t hinfix
      obtain ⟨tail, htail, hnonempty, hbegins⟩ := DateToken.exists_tail_of_infix hinfix
      exact hleft tail htail hnonempty t (hbegins.trans (List.prefix_append _ _))
    exact
      { joined := rfl
        filled := fun other hmem => by
          rcases List.mem_cons.1 hmem with heq | hmem
          · cases heq
            exact hne
          · exact h.filled other hmem
        tokenFree := fun other hmem => by
          rcases List.mem_cons.1 hmem with heq | hmem
          · cases heq
            exact hfree
          · exact h.tokenFree other hmem
        apart := List.isChain_cons.2 ⟨fun piece hpiece hboth => hhead piece hpiece hboth.2, h.apart⟩
        first := fun t after hsuffix => by
          rcases List.suffix_cons_iff.1 hsuffix with heq | hsuffix
          · cases heq
          · exact h.first t after hsuffix
        leftmost := fun other after hsuffix => by
          rcases List.suffix_cons_iff.1 hsuffix with heq | hsuffix
          · cases heq
            exact hleft
          · exact h.leftmost other after hsuffix }

/-! ### A template is cut into its pieces -/

/-- What belongs to a token already is passed over. -/
theorem piecesAfter_append (done rest : List Char) :
    piecesAfter done.length (done ++ rest) = piecesAfter 0 rest := by
  induction done with
  | nil => rfl
  | cons c done ih => exact ih

/-- A token that matches is cut off. -/
theorem piecesAfter_token {t : DateToken} {rest : List Char}
    (h : DateToken.at? (t.spelling.toList ++ rest) = some t) :
    piecesAfter 0 (t.spelling.toList ++ rest) = .token t :: piecesAfter 0 rest := by
  obtain ⟨c, done, hchars, hlength⟩ := t.exists_spelling_eq_cons
  rw [hchars, List.cons_append] at h ⊢
  rw [piecesAfter, h]
  simp only [← hlength, piecesAfter_append]

/-- A character at which no token matches goes into a literal. -/
theorem TemplateCut.prepend {c : Char} {rest : List Char} {ps : List Piece}
    (hat : DateToken.at? (c :: rest) = none) (h : TemplateCut rest ps) :
    TemplateCut (c :: rest) (Piece.prepend c ps) := by
  have hnone := DateToken.at?_eq_none_iff.1 hat
  have hrest := h.joined
  unfold Piece.prepend
  split
  · next literal ps =>
      obtain ⟨rfl, -, hhead, hleft, htail⟩ := templateCut_literal_iff.1 h
      refine templateCut_literal_iff.2 ⟨rfl, List.cons_ne_nil _ _, hhead, fun tail hsuffix hne => ?_, htail⟩
      rcases List.suffix_cons_iff.1 hsuffix with rfl | hsuffix
      · exact hnone
      · exact hleft tail hsuffix hne
  · next hps =>
      refine templateCut_literal_iff.2
        ⟨by rw [hrest]; rfl, List.cons_ne_nil _ _, ?_, fun tail hsuffix hne => ?_, by rwa [hrest]⟩
      · intro piece hpiece hliteral
        obtain ⟨after, hafter⟩ := List.head?_eq_some_iff.1 hpiece
        cases piece with
        | literal literal => exact hps literal after hafter
        | token t => exact hliteral
      · rcases List.suffix_cons_iff.1 hsuffix with rfl | hsuffix
        · rw [hrest]
          exact hnone
        · exact absurd (List.suffix_nil.1 hsuffix) hne

/-- **A text is cut into its pieces**, behind what belongs to a token already. -/
theorem templateCut_piecesAfter (skip : Nat) (text : List Char) :
    TemplateCut (text.drop skip) (piecesAfter skip text) := by
  fun_induction piecesAfter skip text with
  | case1 skip => rw [List.drop_nil]; exact templateCut_nil
  | case2 c rest t hat ih =>
      obtain ⟨d, done, hchars, hlength⟩ := t.exists_spelling_eq_cons
      obtain ⟨after, hafter⟩ := DateToken.prefix_of_at? hat
      rw [hchars, List.cons_append] at hafter
      obtain ⟨rfl, rfl⟩ := List.cons.inj hafter
      rw [← hlength, List.drop_left] at ih
      refine templateCut_token_iff.2 ⟨?_, DateToken.at?_eq_some_iff.1 hat, ?_⟩
      · rw [← hlength, ih.joined, hchars]
        rfl
      · rw [← hlength, ih.joined]
        exact ih
  | case3 c rest hat ih => exact ih.prepend hat
  | case4 skip c rest ih => exact ih

/-! ### There is no other cut -/

/-- In front of a token, or of nothing, a character makes a literal of its own. -/
theorem prepend_of_head {ps : List Piece} (c : Char) (h : ∀ piece ∈ ps.head?, ¬ piece.IsLiteral) :
    Piece.prepend c ps = .literal [c] :: ps := by
  unfold Piece.prepend
  split
  · next literal rest => exact absurd trivial (h (.literal literal) rfl)
  · rfl

/-- A literal is found character by character. -/
theorem piecesAfter_literal {literal : List Char} {ps : List Piece} (hne : literal ≠ [])
    (hhead : ∀ piece ∈ ps.head?, ¬ piece.IsLiteral)
    (hleft : ∀ tail, tail <:+ literal → tail ≠ [] →
      ∀ t : DateToken, ¬ t.spelling.toList <+: tail ++ written ps)
    (hps : piecesAfter 0 (written ps) = ps) :
    piecesAfter 0 (literal ++ written ps) = .literal literal :: ps := by
  induction literal with
  | nil => exact absurd rfl hne
  | cons c literal ih =>
      have hat : DateToken.at? (c :: (literal ++ written ps)) = none :=
        DateToken.at?_eq_none_iff.2 (hleft _ (List.suffix_refl _) (List.cons_ne_nil _ _))
      rw [List.cons_append, piecesAfter, hat]
      by_cases hlast : literal = []
      · subst hlast
        rw [List.nil_append, hps]
        exact prepend_of_head c hhead
      · rw [ih hlast fun tail hsuffix => hleft tail (hsuffix.trans (List.suffix_cons _ _))]
        rfl

theorem TemplateCut.eq_piecesAfter {text : List Char} {ps : List Piece} (h : TemplateCut text ps) :
    ps = piecesAfter 0 text := by
  induction ps generalizing text with
  | nil =>
      obtain rfl := h.joined
      rfl
  | cons piece ps ih =>
      cases piece with
      | token t =>
          obtain ⟨rfl, hfirst, hps⟩ := templateCut_token_iff.1 h
          rw [piecesAfter_token (DateToken.at?_eq_some_iff.2 hfirst), ← ih hps]
      | literal literal =>
          obtain ⟨rfl, hne, hhead, hleft, hps⟩ := templateCut_literal_iff.1 h
          rw [piecesAfter_literal hne hhead hleft (ih hps).symm]

/-- **The pieces of a template are its only cut.** -/
theorem pieces_cut (template : String) :
    TemplateCut template.toList (pieces template) ∧
      ∀ ps, TemplateCut template.toList ps → ps = pieces template :=
  ⟨templateCut_piecesAfter 0 template.toList, fun _ h => h.eq_piecesAfter⟩

example : pieces "YYYY年 SSSS" =
    [.token .year, .literal ['年', ' '], .token .milliseconds, .literal ['S']] := by decide

end ComputedFields
