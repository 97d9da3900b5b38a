/-
**The encoding of URL components, character by character.**

SQL has no function that encodes a URL component, so a formula that asks for one is compiled into a nest of
replacements, one for each character of a table.  They are carried out one after the other over the whole
text, and each of them sees what the ones before it have written.  The result is nevertheless what
replacing all characters at once would give: no code holds a character that is replaced after it was
written.  The percent sign, with which every code begins, is for this reason the first one of the table.

Since the percent sign is itself encoded, every percent sign of the result begins a code.  The codes are
distinct and of one length, so the text can be read back with the same table.

Main definitions:

* `ComputedFields.Text.rewrite` — a text with all keys of a table replaced, at once and from left to right;
* `ComputedFields.Sql.replaceAll`, `ComputedFields.Sql.Expr.textIn` — replacement in SQL, and the text that
  an expression gives;
* `ComputedFields.Escapes` — what makes a table of codes work;
* `ComputedFields.urlCode`, `ComputedFields.urlDecode` — the code of a character, and decoding.

Main results:

* `ComputedFields.foldl_replaceAll` — **replacing one after the other is replacing at once**;
* `ComputedFields.Escapes.rewrite_encode` — **what is encoded can be decoded**;
* `ComputedFields.TextFunction.encodeUrlComponent_exact` — the encoding of a URL component.
-/

import Mathlib.Data.List.Nodup
import ComputedFields.Builtin.Text

set_option relaxedAutoImplicit false
set_option autoImplicit false

namespace ComputedFields

/-! ### Replacing -/

namespace Text

/-- Replaces the keys of a table by the texts beside them, after so many characters that belong to a key
already.  Where several keys match, the first one of the table counts. -/
def rewriteFrom (table : List (List Char × List Char)) : Nat → List Char → List Char
  | _, [] => []
  | 0, c :: rest =>
      match table.find? fun entry => entry.1.isPrefixOf (c :: rest) with
      | some entry => entry.2 ++ rewriteFrom table (entry.1.length - 1) rest
      | none => c :: rewriteFrom table 0 rest
  | skip + 1, _ :: rest => rewriteFrom table skip rest

/-- The text with all keys of a table replaced by the texts beside them. -/
def rewrite (table : List (List Char × List Char)) (text : List Char) : List Char :=
  rewriteFrom table 0 text

variable {table : List (List Char × List Char)}

theorem rewriteFrom_skip (word rest : List Char) :
    rewriteFrom table word.length (word ++ rest) = rewrite table rest := by
  induction word with
  | nil => rfl
  | cons c word ih => exact ih

/-- A key at the beginning of a text is replaced, if no other key stands there. -/
theorem rewrite_append {key value rest : List Char} (hne : key ≠ []) (hmem : (key, value) ∈ table)
    (h : ∀ entry ∈ table, entry.1 <+: key ++ rest → entry = (key, value)) :
    rewrite table (key ++ rest) = value ++ rewrite table rest := by
  have hfound : (table.find? fun entry => entry.1.isPrefixOf (key ++ rest)) = some (key, value) := by
    cases hfind : table.find? fun entry => entry.1.isPrefixOf (key ++ rest) with
    | none =>
        have hnot := List.find?_eq_none.1 hfind (key, value) hmem
        simp at hnot
    | some entry =>
        have hbegins : entry.1 <+: key ++ rest := by simpa using List.find?_some hfind
        rw [h entry (List.mem_of_find?_eq_some hfind) hbegins]
  cases key with
  | nil => exact absurd rfl hne
  | cons c key =>
      rw [List.cons_append] at hfound ⊢
      rw [rewrite, rewriteFrom, hfound]
      exact congrArg (value ++ ·) (rewriteFrom_skip key rest)

/-- A character at which no key begins stays. -/
theorem rewrite_cons {c : Char} {rest : List Char} (h : ∀ entry ∈ table, ¬entry.1 <+: c :: rest) :
    rewrite table (c :: rest) = c :: rewrite table rest := by
  have hnone : (table.find? fun entry => entry.1.isPrefixOf (c :: rest)) = none :=
    List.find?_eq_none.2 fun entry hentry => by simpa using h entry hentry
  rw [rewrite, rewriteFrom, hnone]
  rfl

end Text

namespace Sql

/-- Replacement in SQL: every occurrence of a text, from left to right.  An empty text occurs nowhere. -/
def replaceAll (old new text : List Char) : List Char :=
  if old = [] then text else Text.rewrite [(old, new)] text

/-- The text that an expression gives.  Strings stand for themselves and replacements are carried out; what
all other expressions give is left to `env`. -/
def Expr.textIn (env : Expr → List Char) : Expr → List Char
  | .text value => value.toList
  | .typedText value _ => value.toList
  | .call "REPLACE" [value, old, new] =>
      replaceAll (old.textIn env) (new.textIn env) (value.textIn env)
  | e => env e

/-- Replacing one character. -/
theorem replaceAll_singleton (c : Char) (new text : List Char) :
    replaceAll [c] new text = text.flatMap fun d => if d = c then new else [d] := by
  rw [replaceAll, if_neg (List.cons_ne_nil c [])]
  induction text with
  | nil => rfl
  | cons d text ih =>
      rw [List.flatMap_cons, ← ih]
      by_cases hd : d = c
      · subst hd
        rw [if_pos rfl]
        exact Text.rewrite_append (List.cons_ne_nil d []) List.mem_cons_self
          fun entry hentry _ => List.mem_singleton.1 hentry
      · rw [if_neg hd, Text.rewrite_cons (by simpa using Ne.symm hd)]
        rfl

end Sql

/-! ### Tables of codes -/

/-- The code of a character in a table; other characters stand for themselves. -/
def codeIn (table : List (Char × List Char)) (c : Char) : List Char := (table.lookup c).getD [c]

/-- A table of codes that begin with `mark`. -/
structure Escapes (mark : Char) (table : List (Char × List Char)) : Prop where
  /-- No code holds a character that is replaced after it was written. -/
  settled : table.Pairwise fun earlier later => later.1 ∉ earlier.2
  /-- The codes begin with the mark and have one length. -/
  uniform : ∀ entry ∈ table, entry.2.head? = some mark ∧ entry.2.length = 3
  /-- No two characters have the same code. -/
  distinct : (table.map Prod.snd).Nodup
  /-- The mark has a code. -/
  marked : mark ∈ table.map Prod.fst

section tables

variable {mark : Char} {table : List (Char × List Char)}

theorem codeIn_eq_singleton {c : Char} (h : c ∉ table.map Prod.fst) : codeIn table c = [c] := by
  have hnone : table.lookup c = none := by
    refine List.lookup_eq_none_iff.2 fun entry hentry => bne_iff_ne.2 ?_
    rintro rfl
    exact h (List.mem_map_of_mem hentry)
  rw [codeIn, hnone, Option.getD_none]

theorem exists_codeIn {c : Char} (h : c ∈ table.map Prod.fst) :
    ∃ code, (c, code) ∈ table ∧ codeIn table c = code := by
  cases hcode : table.lookup c with
  | none =>
      obtain ⟨entry, hentry, rfl⟩ := List.mem_map.1 h
      exact absurd rfl (bne_iff_ne.1 (List.lookup_eq_none_iff.1 hcode entry hentry))
  | some code =>
      obtain ⟨before, behind, rfl, _⟩ := List.lookup_eq_some_iff.1 hcode
      exact ⟨code, by simp, by rw [codeIn, hcode, Option.getD_some]⟩

/-- A text without the characters of a table is its own encoding. -/
theorem flatMap_codeIn_eq_self {text : List Char} (h : ∀ entry ∈ table, entry.1 ∉ text) :
    text.flatMap (codeIn table) = text := by
  induction text with
  | nil => rfl
  | cons c text ih =>
      have hc : c ∉ table.map Prod.fst := by
        intro hmem
        obtain ⟨entry, hentry, rfl⟩ := List.mem_map.1 hmem
        exact h entry hentry List.mem_cons_self
      rw [List.flatMap_cons, codeIn_eq_singleton hc,
        ih fun entry hentry hmem => h entry hentry (List.mem_cons_of_mem c hmem)]
      rfl

/-- **Replacing one after the other is replacing at once.** -/
theorem foldl_replaceAll
    (h : table.Pairwise fun earlier later => later.1 ∉ earlier.2) (text : List Char) :
    table.foldl (fun acc entry => Sql.replaceAll [entry.1] entry.2 acc) text =
      text.flatMap (codeIn table) := by
  induction table generalizing text with
  | nil => exact (flatMap_codeIn_eq_self fun _ hentry => absurd hentry List.not_mem_nil).symm
  | cons entry table ih =>
      obtain ⟨key, code⟩ := entry
      obtain ⟨hlater, htable⟩ := List.pairwise_cons.1 h
      rw [List.foldl_cons, ih htable, Sql.replaceAll_singleton, List.flatMap_assoc]
      refine List.flatMap_congr fun c _ => ?_
      by_cases hc : c = key
      · -- later replacements leave the code alone
        rw [if_pos hc, flatMap_codeIn_eq_self hlater]
        simp [codeIn, hc]
      · have hbeq : (c == key) = false := beq_eq_false_iff_ne.2 hc
        rw [if_neg hc, List.flatMap_singleton]
        simp [codeIn, List.lookup_cons, hbeq]

namespace Escapes

variable (h : Escapes mark table)
include h

/-- No code is the beginning of another one. -/
theorem eq_of_begins {entry other : Char × List Char} {rest : List Char} (hentry : entry ∈ table)
    (hother : other ∈ table) (hbegins : other.2 <+: entry.2 ++ rest) : other = entry := by
  have hlength : other.2.length = entry.2.length :=
    (h.uniform other hother).2.trans (h.uniform entry hentry).2.symm
  have hcode : other.2 <+: entry.2 :=
    List.prefix_of_prefix_length_le hbegins (List.prefix_append _ _) (Nat.le_of_eq hlength)
  exact List.inj_on_of_nodup_map h.distinct hother hentry (hcode.eq_of_length hlength)

/-- A code is decoded, whatever follows it. -/
theorem rewrite_code {c : Char} {code : List Char} (hmem : (c, code) ∈ table) (rest : List Char) :
    Text.rewrite (table.map fun entry => (entry.2, [entry.1])) (code ++ rest) =
      c :: Text.rewrite (table.map fun entry => (entry.2, [entry.1])) rest := by
  have hne : code ≠ [] := by
    rintro rfl
    cases (h.uniform _ hmem).2
  have hentry : (code, [c]) ∈ table.map fun entry => (entry.2, [entry.1]) :=
    List.mem_map.2 ⟨(c, code), hmem, rfl⟩
  refine Text.rewrite_append hne hentry fun entry hentry hbegins => ?_
  obtain ⟨other, hother, rfl⟩ := List.mem_map.1 hentry
  rw [h.eq_of_begins hmem hother hbegins]

/-- A character that has no code is not the mark, and begins no code. -/
theorem rewrite_uncoded {c : Char} (hc : c ∉ table.map Prod.fst) (rest : List Char) :
    Text.rewrite (table.map fun entry => (entry.2, [entry.1])) (c :: rest) =
      c :: Text.rewrite (table.map fun entry => (entry.2, [entry.1])) rest := by
  refine Text.rewrite_cons fun entry hentry hbegins => ?_
  obtain ⟨other, hother, rfl⟩ := List.mem_map.1 hentry
  obtain ⟨code, hcode⟩ := List.head?_eq_some_iff.1 (h.uniform other hother).1
  simp only [hcode, List.cons_prefix_cons] at hbegins
  exact hc (hbegins.1 ▸ h.marked)

/-- **What is encoded can be decoded.** -/
theorem rewrite_encode (text : List Char) :
    Text.rewrite (table.map fun entry => (entry.2, [entry.1])) (text.flatMap (codeIn table)) = text := by
  induction text with
  | nil => rfl
  | cons c text ih =>
      rw [List.flatMap_cons]
      by_cases hc : c ∈ table.map Prod.fst
      · obtain ⟨code, hmem, hcode⟩ := exists_codeIn hc
        rw [hcode, h.rewrite_code hmem, ih]
      · rw [codeIn_eq_singleton hc, List.singleton_append, h.rewrite_uncoded hc, ih]

end Escapes

end tables

/-! ### URL components -/

/-- The characters that are encoded in a URL component, with their codes. -/
def urlTable : List (Char × List Char) :=
  urlEscapes.flatMap fun entry => entry.1.toList.map fun c => (c, entry.2.toList)

theorem urlEscapes_eq_map :
    urlEscapes = urlTable.map fun entry => (String.ofList [entry.1], String.ofList entry.2) := rfl

theorem escapes_urlTable : Escapes '%' urlTable where
  settled := by decide
  uniform := by decide
  distinct := by decide
  marked := by decide

/-- What stands for a character in a URL component. -/
def urlCode (c : Char) : List Char := codeIn urlTable c

/-- The text of a URL component: every code is read as its character. -/
def urlDecode (text : List Char) : List Char :=
  Text.rewrite (urlEscapes.map fun entry => (entry.2.toList, entry.1.toList)) text

namespace TextFunction

open Sql (Expr)

theorem textIn_stringLiteral (env : Expr → List Char) (t : Target) (value : String) :
    (t.stringLiteral value).textIn env = value.toList := by
  unfold Target.stringLiteral
  split <;> simp [Expr.textIn]

/-- A nest of replacements is carried out from the inside. -/
theorem textIn_foldl_replace (env : Expr → List Char) (t : Target) (table : List (Char × List Char))
    (e : Expr) :
    (table.foldl (fun acc entry => Expr.call "REPLACE"
      [acc, t.stringLiteral (String.ofList [entry.1]), t.stringLiteral (String.ofList entry.2)]) e).textIn
        env =
      table.foldl (fun acc entry => Sql.replaceAll [entry.1] entry.2 acc) (e.textIn env) := by
  induction table generalizing e with
  | nil => rfl
  | cons entry table ih =>
      rw [List.foldl_cons, List.foldl_cons, ih]
      simp only [Expr.textIn, textIn_stringLiteral, String.toList_ofList]

/-- The replacements of a URL component encode every character of the text. -/
theorem textIn_urlEncoded (env : Expr → List Char) (t : Target) (value : Expr) :
    (urlEncoded t value).textIn env = (value.textIn env).flatMap urlCode := by
  rw [urlEncoded, urlEscapes_eq_map, List.foldl_map, textIn_foldl_replace]
  exact foldl_replaceAll escapes_urlTable.settled _

/-- **The encoding of a URL component.**  Carrying out the replacements of the compiled call encodes every
character of the text on its own, and what they give can be decoded. -/
theorem encodeUrlComponent_exact (t : Target) (f : Fragment) (env : Expr → List Char) :
    ∃ e, TextFunction.apply t .encodeUrlComponent [f] = .ok (.string e) ∧
      e.textIn env = ((t.text f).textIn env).flatMap urlCode ∧
      urlDecode (e.textIn env) = (t.text f).textIn env := by
  refine ⟨urlEncoded t (t.text f), rfl, textIn_urlEncoded env t _, ?_⟩
  rw [textIn_urlEncoded]
  exact escapes_urlTable.rewrite_encode _

-- a space, and a percent sign that is not taken for the beginning of a code
example : (urlEncoded { now := ⟨0⟩ } (.text "5 %20")).textIn (fun _ => []) = "5%20%2520".toList := by
  decide

end TextFunction

end ComputedFields
