/-
**The tokens of a source tile it.**

Read one after the other, the tokens of a source come to an end, and what they leave of the source is
blanks.  The places of tokens and faults are bytes, while the scanner walks over characters; in between
stands the layout of a source, which cuts it into stretches of blanks and lexemes and keeps count of the
bytes.  Every reading of the source has a layout, and each property of the tokens is an induction over it.

A token also stands on its own: read without the source around it, its text gives the same token.  Longer
operators, numbers and words go on as long as they can, so the end of the text stops them where the source
did, and strings and field references bring their own end along.

Main definitions:

* `ComputedFields.Cursor.Run` — the answers of reading again and again;
* `ComputedFields.Laid` — the layout of a source;
* `ComputedFields.utf8Bytes`, `ComputedFields.isBlankByte` — the bytes of a text, and blank bytes;
* `ComputedFields.Tiling` — what it means that tokens tile a source.

Main results:

* `ComputedFields.lexeme_text` — **a lexeme stands on its own**;
* `ComputedFields.laid_scan`, `ComputedFields.Laid.run` — scanning and reading lay a source out alike;
* `ComputedFields.scan_tiles` — **reading a source ends, and its tokens tile it**.
-/

import ComputedFields.Proofs.PrintedWords
import ComputedFields.Token.Cursor

set_option relaxedAutoImplicit false
set_option autoImplicit false

namespace ComputedFields

/-! ### Reading again and again -/

/-- The tokens that reading again and again gives, up to the end of the source or to a fault. -/
inductive Cursor.Run : Cursor → List Token → Option LexError → Prop where
  | done {c after : Cursor} : c.next = (.ok none, after) → Run c [] none
  | fault {c after : Cursor} {e : LexError} : c.next = (.error e, after) → Run c [] (some e)
  | token {c after : Cursor} {t : Token} {tokens : List Token} {fault : Option LexError} :
      c.next = (.ok (some t), after) → Run after tokens fault → Run c (t :: tokens) fault

/-- Reading gives the same answers whenever it ends. -/
theorem Cursor.Run.unique {c : Cursor} {tokens others : List Token} {fault other : Option LexError}
    (h : c.Run tokens fault) (h' : c.Run others other) : tokens = others ∧ fault = other := by
  induction h generalizing others other with
  | done hnext =>
      cases h' with
      | done => exact ⟨rfl, rfl⟩
      | fault hnext' => cases hnext.symm.trans hnext'
      | token hnext' => cases hnext.symm.trans hnext'
  | fault hnext =>
      cases h' with
      | done hnext' => cases hnext.symm.trans hnext'
      | fault hnext' =>
          cases hnext.symm.trans hnext'
          exact ⟨rfl, rfl⟩
      | token hnext' => cases hnext.symm.trans hnext'
  | token hnext _ ih =>
      cases h' with
      | done hnext' => cases hnext.symm.trans hnext'
      | fault hnext' => cases hnext.symm.trans hnext'
      | token hnext' hrun' =>
          cases hnext.symm.trans hnext'
          obtain ⟨rfl, rfl⟩ := ih hrun'
          exact ⟨rfl, rfl⟩

/-! ### Lexemes on their own -/

theorem operator?_text {source : List Char} {kind : TokenKind} {text : List Char}
    (h : operator? source = some (kind, text)) : operator? text = some (kind, text) := by
  unfold operator? at h
  split at h <;> cases h <;> rfl

/-- A string ends where it ended in the source. -/
theorem splitString_fst {quote : Char} {source : List Char} {split : List Char × List Char}
    (h : splitString quote source = some split) : splitString quote split.1 = some (split.1, []) := by
  fun_induction splitString quote source generalizing split with
  | case1 => cases h
  | case2 escaped rest ih =>
      obtain ⟨inner, hinner, rfl⟩ := Option.map_eq_some_iff.1 h
      simp [splitString, ih hinner]
  | case3 =>
      cases h
      simp [splitString]
  | case4 c rest hescape hc ih =>
      obtain ⟨inner, hinner, rfl⟩ := Option.map_eq_some_iff.1 h
      rw [splitString, if_neg hc, ih hinner]
      · rfl
      · intro escaped after heq _
        cases rest with
        | nil => cases hinner
        | cons d rest => exact hescape d rest heq rfl

theorem IsWord.lexeme_text {kind : TokenKind} {c : Char} {text : List Char}
    (h : IsWord (kind, c :: text)) : lexeme c text = .ok ⟨kind, c :: text, []⟩ := by
  obtain ⟨d, tail, htext, _, hlexeme⟩ := h [] Ends.nil
  cases htext
  rwa [List.append_nil] at hlexeme

/-- **A lexeme stands on its own**: read without what follows it, its text gives it again. -/
theorem lexeme_text {c : Char} {rest : List Char} {l : Lexeme} (h : lexeme c rest = .ok l) :
    ∃ text, l.text = c :: text ∧ lexeme c text = .ok ⟨l.kind, l.text, []⟩ := by
  obtain ⟨d, tail, htext⟩ := List.exists_cons_of_ne_nil (text_ne_nil_of_lexeme h)
  have hsource := text_append_rest_of_lexeme h
  rw [htext, List.cons_append] at hsource
  obtain ⟨rfl, -⟩ := List.cons.inj hsource
  cases lexes_of_lexeme h with
  | operator hop =>
      have hop' := operator?_text hop
      dsimp only at htext
      refine ⟨tail, htext, ?_⟩
      unfold lexeme
      rw [← htext, hop']
      simp
  | string q hsplit =>
      refine ⟨_, rfl, ?_⟩
      rw [q.lexeme_mark, stringLexeme, splitString_fst hsplit]
  | field hsplit =>
      obtain ⟨id, hid, hnot⟩ := exists_of_splitBrace hsplit
      refine ⟨_, rfl, ?_⟩
      rw [hid]
      exact (isWord_field hnot).lexeme_text
  | word hstart =>
      exact ⟨_, rfl, (isWord_of_isWordStart hstart List.all_takeWhile).lexeme_text⟩
  | number =>
      have hword := isWord_number (text_ne_nil_of_lexeme h) (isNumber_splitNumber _)
      dsimp only at htext
      rw [htext] at hword ⊢
      exact ⟨tail, rfl, hword.lexeme_text⟩

/-! ### Layouts -/

/-- The characters are blanks. -/
def Blanks (text : List Char) : Prop := ∀ c ∈ text, Text.isSeparator c = true

theorem blanks_nil : Blanks [] := List.forall_mem_nil _

/-- The layout of a source that starts at byte `offset`: blanks and lexemes in turn, up to the end or to a
character at which there is no lexeme. -/
inductive Laid : Nat → List Char → List Token → Option LexError → Prop where
  | done {offset : Nat} {blanks : List Char} : Blanks blanks → Laid offset blanks [] none
  | fault {offset : Nat} (blanks : List Char) {rest : List Char} {c : Char} {f : LexFault} :
      Blanks blanks → Text.isSeparator c = false → lexeme c rest = .error f →
      Laid offset (blanks ++ c :: rest) [] (some (f.at (offset + byteSize blanks)))
  | token {offset : Nat} (blanks : List Char) {rest : List Char} {c : Char} {l : Lexeme}
      {tokens : List Token} {fault : Option LexError} :
      Blanks blanks → Text.isSeparator c = false → lexeme c rest = .ok l →
      Laid (offset + byteSize blanks + byteSize l.text) l.rest tokens fault →
      Laid offset (blanks ++ c :: rest) (⟨l.kind, offset + byteSize blanks, l.text⟩ :: tokens) fault

/-- A blank in front. -/
theorem Laid.blank {offset : Nat} {c : Char} {rest : List Char} {tokens : List Token}
    {fault : Option LexError} (hc : Text.isSeparator c = true)
    (h : Laid (offset + c.utf8Size) rest tokens fault) : Laid offset (c :: rest) tokens fault := by
  have hcons {blanks : List Char} (hblanks : Blanks blanks) : Blanks (c :: blanks) :=
    List.forall_mem_cons.2 ⟨hc, hblanks⟩
  cases h with
  | done hblanks => exact .done (hcons hblanks)
  | fault blanks hblanks hsep hlexeme =>
      rw [Nat.add_assoc, ← byteSize_cons]
      exact .fault (c :: blanks) (hcons hblanks) hsep hlexeme
  | token blanks hblanks hsep hlexeme hrest =>
      rw [Nat.add_assoc offset, ← byteSize_cons] at hrest ⊢
      exact .token (c :: blanks) (hcons hblanks) hsep hlexeme hrest

theorem laid_scanFrom {fuel offset : Nat} {source : List Char} (hfuel : source.length < fuel) :
    Laid offset source (scanFrom fuel offset source).tokens (scanFrom fuel offset source).fault := by
  fun_induction scanFrom fuel offset source with
  | case1 => cases hfuel
  | case2 => exact .done blanks_nil
  | case3 fuel offset c rest hblank ih =>
      rw [List.length_cons] at hfuel
      exact .blank hblank (ih (by omega))
  | case4 fuel offset c rest hblank f hf => exact .fault [] blanks_nil (by simpa using hblank) hf
  | case5 fuel offset c rest hblank l hl next ih =>
      have hrest := length_rest_of_lexeme hl
      rw [List.length_cons] at hfuel
      exact .token [] blanks_nil (by simpa using hblank) hl (ih (by omega))

/-- **Scanning lays a source out.** -/
theorem laid_scan (source : List Char) : Laid 0 source (scan source).tokens (scan source).fault :=
  laid_scanFrom (Nat.lt_succ_self _)

/-- Blanks are skipped as far as they go. -/
theorem Cursor.skipBlanks_append {blanks : List Char} (h : Blanks blanks) (rest : List Char)
    (hrest : ∀ c ∈ rest.head?, Text.isSeparator c = false) (offset : Nat) :
    Cursor.skipBlanks ⟨blanks ++ rest, offset, 0⟩ = ⟨rest, offset + byteSize blanks, 0⟩ := by
  have hstop : rest.takeWhile Text.isSeparator = [] ∧ rest.dropWhile Text.isSeparator = rest := by
    cases rest with
    | nil => exact ⟨rfl, rfl⟩
    | cons c rest =>
        have hc := hrest c rfl
        exact ⟨by simp [hc], by simp [hc]⟩
  rw [Cursor.skipBlanks, if_neg (by simp)]
  simp only [List.takeWhile_append_of_pos h, List.dropWhile_append_of_pos h, hstop.1, hstop.2,
    List.append_nil]

/-- **Reading again and again follows the layout of a source.** -/
theorem Laid.run {offset : Nat} {rest : List Char} {tokens : List Token} {fault : Option LexError}
    (h : Laid offset rest tokens fault) : Cursor.Run ⟨rest, offset, 0⟩ tokens fault := by
  induction h with
  | @done offset blanks hblanks =>
      have hskip := Cursor.skipBlanks_append hblanks [] (by simp) offset
      have hnext : Cursor.next ⟨blanks, offset, 0⟩ = (.ok none, ⟨[], offset + byteSize blanks, 0⟩) := by
        rw [List.append_nil] at hskip
        rw [Cursor.next, hskip]
      exact .done hnext
  | @fault offset blanks rest c f hblanks hsep hlexeme =>
      have hskip := Cursor.skipBlanks_append hblanks (c :: rest) (by simpa using hsep) offset
      have hnext : Cursor.next ⟨blanks ++ c :: rest, offset, 0⟩ =
          (.error (f.at (offset + byteSize blanks)),
            Cursor.afterFault ⟨c :: rest, offset + byteSize blanks, 0⟩ f) := by
        rw [Cursor.next, hskip]
        simp [hlexeme]
      exact .fault hnext
  | @token offset blanks rest c l tokens fault hblanks hsep hlexeme _ ih =>
      have hskip := Cursor.skipBlanks_append hblanks (c :: rest) (by simpa using hsep) offset
      refine .token ?_ ih
      rw [Cursor.next, hskip]
      simp [hlexeme]

section layouts

variable {offset : Nat} {rest : List Char} {tokens : List Token} {fault : Option LexError}

/-- The text of a token is not empty, and laid out alone it is that token. -/
theorem Laid.alone (h : Laid offset rest tokens fault) :
    ∀ t ∈ tokens, t.text ≠ [] ∧ Laid 0 t.text [⟨t.kind, 0, t.text⟩] none := by
  induction h with
  | done => simp
  | fault => simp
  | @token offset blanks rest c l tokens fault _ hsep hlexeme _ ih =>
      refine List.forall_mem_cons.2 ⟨⟨text_ne_nil_of_lexeme hlexeme, ?_⟩, ih⟩
      obtain ⟨text, htext, halone⟩ := lexeme_text hlexeme
      have hlaid : Laid 0 ([] ++ c :: text) [⟨l.kind, 0 + byteSize [], l.text⟩] none :=
        .token (l := ⟨l.kind, l.text, []⟩) [] blanks_nil hsep halone (.done blanks_nil)
      rwa [List.nil_append, ← htext] at hlaid

/-- A token stands where the bytes before it end. -/
theorem Laid.placed (h : Laid offset rest tokens fault) :
    ∀ t ∈ tokens, ∃ before behind, rest = before ++ (t.text ++ behind) ∧
      t.start = offset + byteSize before := by
  induction h with
  | done => simp
  | fault => simp
  | @token offset blanks rest c l tokens fault _ _ hlexeme _ ih =>
      rw [← text_append_rest_of_lexeme hlexeme]
      refine List.forall_mem_cons.2 ⟨⟨blanks, l.rest, rfl, rfl⟩, fun t ht => ?_⟩
      obtain ⟨before, behind, hrest, hstart⟩ := ih t ht
      refine ⟨blanks ++ (l.text ++ before), behind, by simp [hrest], ?_⟩
      rw [hstart, byteSize_append, byteSize_append]
      omega

/-- **Tokens come one after the other.** -/
theorem Laid.ordered (h : Laid offset rest tokens fault) :
    tokens.Pairwise fun earlier later => earlier.stop ≤ later.start := by
  induction h with
  | done => exact .nil
  | fault => exact .nil
  | @token offset blanks rest c l tokens fault _ _ _ hrest ih =>
      refine List.pairwise_cons.2 ⟨fun t ht => ?_, ih⟩
      obtain ⟨before, behind, _, hstart⟩ := hrest.placed t ht
      rw [hstart, Token.stop]
      exact Nat.le_add_right _ _

/-- A fault stands behind all tokens, at a character that is no blank. -/
theorem Laid.fault_placed (h : Laid offset rest tokens fault) :
    ∀ e ∈ fault, (∃ before c behind, rest = before ++ c :: behind ∧ Text.isSeparator c = false ∧
      e.start = offset + byteSize before) ∧ ∀ t ∈ tokens, t.stop ≤ e.start := by
  induction h with
  | done => simp
  | @fault offset blanks rest c f _ hsep _ =>
      rintro e ⟨⟩
      exact ⟨⟨blanks, c, rest, rfl, hsep, by cases f <;> rfl⟩, by simp⟩
  | @token offset blanks rest c l tokens fault _ _ hlexeme _ ih =>
      intro e he
      obtain ⟨⟨before, d, behind, hrest, hsep, hstart⟩, hbefore⟩ := ih e he
      refine ⟨⟨blanks ++ (l.text ++ before), d, behind, ?_, hsep, ?_⟩,
        List.forall_mem_cons.2 ⟨?_, hbefore⟩⟩
      · rw [← text_append_rest_of_lexeme hlexeme, hrest]
        simp
      · rw [hstart, byteSize_append, byteSize_append]
        omega
      · rw [hstart, Token.stop]
        exact Nat.le_add_right _ _

end layouts

/-! ### Bytes -/

/-- The bytes of a text in UTF-8. -/
def utf8Bytes (text : List Char) : List UInt8 := text.flatMap String.utf8EncodeChar

/-- A blank byte: space, tab, line feed, form feed or carriage return. -/
def isBlankByte (b : UInt8) : Bool := b = 0x20 || b = 0x09 || b = 0x0a || b = 0x0c || b = 0x0d

@[simp] theorem utf8Bytes_append (a b : List Char) : utf8Bytes (a ++ b) = utf8Bytes a ++ utf8Bytes b :=
  List.flatMap_append

@[simp] theorem length_utf8Bytes (text : List Char) : (utf8Bytes text).length = byteSize text := by
  induction text with
  | nil => rfl
  | cons c text ih =>
      rw [utf8Bytes, List.flatMap_cons, List.length_append, String.length_utf8EncodeChar]
      exact congrArg (c.utf8Size + ·) ih

theorem utf8ByteSize_ofList (text : List Char) : (String.ofList text).utf8ByteSize = byteSize text := by
  rw [← length_utf8Bytes, ← String.size_toByteArray, String.toByteArray_ofList, List.utf8Encode,
    List.size_toByteArray]
  rfl

/-- The bytes of blanks are blank. -/
theorem Blanks.isBlankByte {text : List Char} (h : Blanks text) :
    ∀ b ∈ utf8Bytes text, isBlankByte b = true := by
  intro b hb
  obtain ⟨c, hc, hb⟩ := List.mem_flatMap.1 hb
  have hblank := h c hc
  simp only [Text.isSeparator, Bool.or_eq_true, decide_eq_true_eq] at hblank
  rcases hblank with (((rfl | rfl) | rfl) | rfl) | rfl <;> cases List.mem_singleton.1 hb <;> decide

/-- The codes of blanks. -/
def blankCodes : List Nat := [0x20, 0x09, 0x0a, 0x0c, 0x0d]

theorem isBlankByte_ofNat {n : Nat} (hn : n < 256) (h : n ∉ blankCodes) :
    isBlankByte (UInt8.ofNat n) = false := by
  rw [← UInt8.toNat_ofNat_of_lt' hn] at h
  rw [Bool.eq_false_iff]
  intro hblank
  simp only [isBlankByte, Bool.or_eq_true, decide_eq_true_eq] at hblank
  rcases hblank with (((hb | hb) | hb) | hb) | hb <;> exact h (by rw [hb]; decide)

theorem toNat_notMem_blankCodes {c : Char} (h : Text.isSeparator c = false) : c.toNat ∉ blankCodes := by
  intro hmem
  have hblank : ∀ code ∈ blankCodes, Text.isSeparator (Char.ofNat code) = true := by decide
  have hc := hblank c.toNat hmem
  rw [Char.ofNat_toNat, h] at hc
  cases hc

/-- The first byte of a character that is no blank is not blank: a character of several bytes begins with a
byte above all blanks. -/
theorem exists_first_byte {c : Char} (h : Text.isSeparator c = false) :
    ∃ b bytes, String.utf8EncodeChar c = b :: bytes ∧ isBlankByte b = false := by
  have hhigh {n : Nat} (hn : n < 256) (hn' : 128 ≤ n) : isBlankByte (UInt8.ofNat n) = false := by
    have hlow : ∀ code ∈ blankCodes, code < 128 := by decide
    exact isBlankByte_ofNat hn fun hmem => Nat.not_lt.2 hn' (hlow n hmem)
  unfold String.utf8EncodeChar
  simp only
  split
  · exact ⟨_, _, rfl, isBlankByte_ofNat (by omega) (toNat_notMem_blankCodes h)⟩
  split
  · exact ⟨_, _, rfl, hhigh (by omega) (by omega)⟩
  split
  · exact ⟨_, _, rfl, hhigh (by omega) (by omega)⟩
  · exact ⟨_, _, rfl, hhigh (by omega) (by omega)⟩

/-! ### Tiling -/

/-- **What lies outside the tokens is blank**, up to the fault if there is one. -/
theorem Laid.blank_outside {offset : Nat} {rest : List Char} {tokens : List Token}
    {fault : Option LexError} (h : Laid offset rest tokens fault) {i : Nat} {b : UInt8}
    (hb : (utf8Bytes rest)[i]? = some b) (hfault : ∀ e ∈ fault, offset + i < e.start)
    (houtside : ∀ t ∈ tokens, offset + i < t.start ∨ t.stop ≤ offset + i) : isBlankByte b = true := by
  induction h generalizing i with
  | done hblanks => exact hblanks.isBlankByte b (List.mem_of_getElem? hb)
  | @fault offset blanks rest c f hblanks _ _ =>
      have hi : i < (utf8Bytes blanks).length := by
        have hstart := hfault _ rfl
        rw [length_utf8Bytes]
        cases f <;> simp only [LexFault.at, LexError.start] at hstart <;> omega
      rw [utf8Bytes_append, List.getElem?_append_left hi] at hb
      exact hblanks.isBlankByte b (List.mem_of_getElem? hb)
  | @token offset blanks rest c l tokens fault hblanks _ hlexeme _ ih =>
      rw [List.forall_mem_cons] at houtside
      rw [← text_append_rest_of_lexeme hlexeme, utf8Bytes_append] at hb
      rcases houtside.1 with hbefore | hbehind
      · have hi : i < (utf8Bytes blanks).length := by
          rw [length_utf8Bytes]
          exact Nat.lt_of_add_lt_add_left hbefore
        rw [List.getElem?_append_left hi] at hb
        exact hblanks.isBlankByte b (List.mem_of_getElem? hb)
      · -- behind the token the rest of the source counts from its own beginning
        obtain ⟨k, hk⟩ := Nat.exists_eq_add_of_le hbehind
        simp only [Token.stop] at hk
        have hi : i = byteSize blanks + (byteSize l.text + k) := by omega
        rw [hi, ← length_utf8Bytes blanks, List.getElem?_append_right (Nat.le_add_right _ _),
          Nat.add_sub_cancel_left, utf8Bytes_append, ← length_utf8Bytes l.text,
          List.getElem?_append_right (Nat.le_add_right _ _), Nat.add_sub_cancel_left] at hb
        have hplace : offset + byteSize blanks + byteSize l.text + k = offset + i := by omega
        rw [← hplace] at hfault houtside
        exact ih hb hfault houtside.2

/-- The tokens tile a source, up to the fault if there is one. -/
structure Tiling (source : String) (tokens : List Token) (fault : Option LexError) : Prop where
  /-- No token is empty. -/
  nonempty : ∀ t ∈ tokens, t.start < t.stop
  /-- A token ends before the next ones start. -/
  ordered : tokens.Pairwise fun earlier later => earlier.stop ≤ later.start
  /-- Tokens start and end between two characters. -/
  aligned : ∀ t ∈ tokens,
    String.Pos.Raw.IsValid source ⟨t.start⟩ ∧ String.Pos.Raw.IsValid source ⟨t.stop⟩
  /-- The text of a token is what the source holds there. -/
  sliced : ∀ t ∈ tokens,
    ((utf8Bytes source.toList).drop t.start).take (t.stop - t.start) = utf8Bytes t.text
  /-- Everything outside the tokens is blank, up to the end of the source or to the fault. -/
  blank : ∀ i b, (utf8Bytes source.toList)[i]? = some b → (∀ e ∈ fault, i < e.start) →
    (∀ t ∈ tokens, i < t.start ∨ t.stop ≤ i) → isBlankByte b = true
  /-- The fault is behind all tokens, at a byte that is not blank. -/
  faulty : ∀ e ∈ fault, (∀ t ∈ tokens, t.stop ≤ e.start) ∧
    ∃ b, (utf8Bytes source.toList)[e.start]? = some b ∧ isBlankByte b = false
  /-- Read on its own, the text of a token gives one token of its kind and nothing else. -/
  alone : ∀ t ∈ tokens, (Cursor.start (String.ofList t.text)).Run [⟨t.kind, 0, t.text⟩] none

theorem isValid_byteSize {source : String} {before behind : List Char}
    (h : source.toList = before ++ behind) : String.Pos.Raw.IsValid source ⟨byteSize before⟩ := by
  refine String.Pos.Raw.isValid_iff_exists_append.2 ⟨.ofList before, .ofList behind, ?_, ?_⟩
  · rw [← String.ofList_append, ← h, String.ofList_toList]
  · rw [← utf8ByteSize_ofList]
    rfl

/-- A source that is laid out is tiled. -/
theorem Laid.tiling {source : String} {tokens : List Token} {fault : Option LexError}
    (h : Laid 0 source.toList tokens fault) : Tiling source tokens fault where
  nonempty t ht := by
    obtain ⟨c, text, htext⟩ := List.exists_cons_of_ne_nil (h.alone t ht).1
    have hpos := c.utf8Size_pos
    rw [Token.stop, htext, byteSize_cons]
    omega
  ordered := h.ordered
  aligned t ht := by
    obtain ⟨before, behind, hsource, hstart⟩ := h.placed t ht
    rw [Nat.zero_add] at hstart
    constructor
    · rw [hstart]
      exact isValid_byteSize hsource
    · rw [Token.stop, hstart, ← byteSize_append]
      exact isValid_byteSize (by rw [hsource, List.append_assoc])
  sliced t ht := by
    obtain ⟨before, behind, hsource, hstart⟩ := h.placed t ht
    rw [Nat.zero_add] at hstart
    rw [Token.stop, Nat.add_sub_cancel_left, hstart, hsource, utf8Bytes_append, utf8Bytes_append,
      ← length_utf8Bytes before, ← length_utf8Bytes t.text, List.drop_left, List.take_left]
  blank i b hb hfault houtside := by
    have hi : 0 + i = i := Nat.zero_add i
    exact h.blank_outside hb (by rwa [hi]) (by rwa [hi])
  faulty e he := by
    obtain ⟨⟨before, c, behind, hsource, hsep, hstart⟩, hbehind⟩ := h.fault_placed e he
    obtain ⟨b, bytes, hbytes, hb⟩ := exists_first_byte hsep
    refine ⟨hbehind, b, ?_, hb⟩
    rw [hstart, Nat.zero_add, hsource, utf8Bytes_append, ← length_utf8Bytes before,
      List.getElem?_append_right (Nat.le_refl _), Nat.sub_self, utf8Bytes, List.flatMap_cons, hbytes]
    rfl
  alone t ht := by
    have hrun := (h.alone t ht).2.run
    rwa [Cursor.start, String.toList_ofList]

/-- **Reading a source ends, and its tokens tile it.**  Reading token by token ends in one way, with the
tokens and the fault of the scan, and these tile the source. -/
theorem scan_tiles (source : String) :
    (∀ tokens fault, (Cursor.start source).Run tokens fault ↔
      tokens = (scan source.toList).tokens ∧ fault = (scan source.toList).fault) ∧
      Tiling source (scan source.toList).tokens (scan source.toList).fault := by
  have hlaid := laid_scan source.toList
  refine ⟨fun tokens fault => ⟨fun hrun => hrun.unique hlaid.run, ?_⟩, hlaid.tiling⟩
  rintro ⟨rfl, rfl⟩
  exact hlaid.run

end ComputedFields
