import DocumentQuery.Json.Reader
import DocumentQuery.Json.Writer
import Mathlib.Data.List.Basic

/-!
# Texts of values

The text of a value determines the value, up to the numbers that are written alike. Texts also stand
inside other texts, so the statement to prove is about a text that is followed by more: what follows
the text of a value is at an end or starts with a delimiter, and then both the value and what follows
can be told from the characters (`Json.alike_of_append`).

The induction is on two values at once, and both have the same constructor because the first character of a
text tells which one it is (`Json.text_head`). Numbers are the one kind whose text has no end of its own: it
ends where a character follows that no number has.

## Main definitions

* `Json.Alike` — equality of values that does not look below the text of a number

## Main results

* `Json.Reader.readString_escaped` — a string that is written is read back
* `Json.alike_of_append` — texts can be told apart also when more follows
* `Json.text_inj` — values with the same text are alike
-/

namespace DocumentQuery

/-! ## Strings -/

namespace Json.Reader

/-- A control character is read back from its number. -/
theorem readEscape_control (n : Fin 32) (rest : List Char) :
    readEscape ('u' :: '0' :: '0' :: (if n.val < 16 then '0' else '1') ::
      Nat.digitChar (n.val % 16) :: rest) = some (some (Char.ofNat n.val), rest) := by
  have digits : ∀ n : Fin 32, hexValue? (if n.val < 16 then '0' else '1') = some (n.val / 16) ∧
      hexValue? (Nat.digitChar (n.val % 16)) = some (n.val % 16) := by decide
  obtain ⟨hhigh, hlow⟩ := digits n
  have hzero : hexValue? '0' = some 0 := by decide
  have hn : n.val / 16 * 16 + n.val % 16 = n.val := by omega
  have hlt := n.isLt
  have hsurrogate : ¬ 0xD800 ≤ n.val := by omega
  have hsurrogate' : ¬ 0xDC00 ≤ n.val := by omega
  simp only [readEscape, readNumbered, readUnit, hzero, hhigh, hlow]
  simp [hsurrogate, hsurrogate', hn]

/-- One character of a string is read back. -/
theorem readString_escapeChar (fuel : Nat) (read : List Char) (c : Char) (rest : List Char) :
    readString (fuel + 1) (some read) (Json.escapeChar c ++ rest) =
      readString fuel (some (c :: read)) rest := by
  unfold Json.escapeChar
  split
  iterate 7 rfl
  next =>
    split
    next hc =>
      have hlt : c.toNat < 32 := hc
      have hread := readEscape_control ⟨c.toNat, hlt⟩ rest
      simp only [Char.ofNat_toNat] at hread
      simp only [List.cons_append, List.nil_append, readString, hread]
      rfl
    next hc =>
      simp only [List.cons_append, List.nil_append, readString, if_neg hc, Option.map_some]

/-- A string that is written is read back, up to its closing quote. -/
theorem readString_escaped {fuel : Nat} (read s rest : List Char) (h : s.length < fuel) :
    readString fuel (some read) (s.flatMap Json.escapeChar ++ '"' :: rest) =
      some (some (String.ofList (read.reverse ++ s)), rest) := by
  induction s generalizing fuel read with
  | nil =>
    obtain ⟨fuel, rfl⟩ := Nat.exists_eq_succ_of_ne_zero (Nat.ne_of_gt h)
    simp [readString]
  | cons c s ih =>
    obtain ⟨fuel, rfl⟩ := Nat.exists_eq_succ_of_ne_zero (Nat.ne_of_gt (Nat.zero_lt_of_lt h))
    rw [List.flatMap_cons, List.append_assoc, readString_escapeChar,
      ih (c :: read) (Nat.lt_of_succ_lt_succ h)]
    simp

end Json.Reader

namespace Json

/-- A string between quotes can be told from what follows it. -/
theorem quote_append_inj {s t : String} {rest rest' : List Char}
    (h : (quote s).toList ++ rest = (quote t).toList ++ rest') : s = t ∧ rest = rest' := by
  simp only [quote, String.toList_ofList, List.cons_append, List.append_assoc, List.nil_append,
    List.cons.injEq, true_and] at h
  have hs : s.toList.length < s.toList.length + t.toList.length + 1 := by omega
  have ht : t.toList.length < s.toList.length + t.toList.length + 1 := by omega
  have hread := Reader.readString_escaped [] s.toList rest hs
  rw [h, Reader.readString_escaped [] t.toList rest' ht] at hread
  simpa [eq_comm] using hread

end Json

/-! ## Numbers -/

/-- Whether a character occurs in the texts of numbers. -/
def Number.isTextChar (c : Char) : Bool :=
  c.isDigit || c == '+' || c == '-' || c == '.' || c == 'e'

/-- Whether a text could be a part of the text of a number. -/
def Number.IsTextPart (s : String) : Prop :=
  ∀ c ∈ s.toList, isTextChar c = true

namespace Number

/-- Parts of the texts of numbers can be joined. -/
theorem isTextPart_append {s t : String} (hs : IsTextPart s) (ht : IsTextPart t) :
    IsTextPart (s ++ t) := by
  intro c hc
  rw [String.toList_append] at hc
  exact (List.mem_append.mp hc).elim (hs c) (ht c)

theorem isTextPart_repr (n : Nat) : IsTextPart n.repr := by
  intro c hc
  rw [Nat.toList_repr] at hc
  simp [isTextChar, Nat.isDigit_of_mem_toDigits (by decide) (by decide) hc]

/-- Digits that are taken from the digits of a natural number, with zeros added. -/
theorem isTextPart_ofList {n : Nat} {chars : List Char}
    (h : ∀ c ∈ chars, c ∈ n.repr.toList ∨ c = '0') : IsTextPart (String.ofList chars) := by
  intro c hc
  rw [String.toList_ofList] at hc
  rcases h c hc with hc | rfl
  · exact isTextPart_repr n c hc
  · decide

theorem isTextPart_literal {s : String} (h : s.toList.all isTextChar = true) : IsTextPart s :=
  fun c hc => List.all_eq_true.mp h c hc

/-- Leaving out zeros adds no digit. -/
theorem mem_of_mem_trimZeros {digits : List Char} {c : Char}
    (h : c ∈ DecimalLayout.trimZeros digits) : c ∈ digits := by
  unfold DecimalLayout.trimZeros at h
  exact List.mem_reverse.mp ((List.dropWhile_sublist _).subset (List.mem_reverse.mp h))

theorem isTextPart_writeDecimal (layout : DecimalLayout) (d : Decimal) :
    IsTextPart (layout.writeDecimal d) := by
  have part {chars : List Char} (h : ∀ c ∈ chars, c ∈ DecimalLayout.trimZeros d.digits.repr.toList ∨
      c = '0') : IsTextPart (String.ofList chars) :=
    isTextPart_ofList (n := d.digits) fun c hc => (h c hc).imp_left mem_of_mem_trimZeros
  simp only [DecimalLayout.writeDecimal]
  split
  · split
    · refine isTextPart_append (isTextPart_literal (by decide)) (part fun c hc => ?_)
      rcases List.mem_append.mp hc with hc | hc
      · exact Or.inr (List.eq_of_mem_replicate hc)
      · exact Or.inl hc
    -- digits before the point are filled up with zeros where they do not reach it
    · have padded {k : Nat} {zeros : Nat} : IsTextPart (String.ofList
          ((DecimalLayout.trimZeros d.digits.repr.toList).take k ++ List.replicate zeros '0')) :=
        part fun c hc => (List.mem_append.mp hc).imp List.mem_of_mem_take List.eq_of_mem_replicate
      have fraction {k : Nat} : IsTextPart (String.ofList
          ((DecimalLayout.trimZeros d.digits.repr.toList).drop k)) :=
        part fun c hc => Or.inl (List.mem_of_mem_drop hc)
      split
      · split
        · exact isTextPart_append padded (isTextPart_literal (by decide))
        · exact isTextPart_append padded (isTextPart_literal (by decide))
      · exact isTextPart_append
          (isTextPart_append padded (isTextPart_literal (by decide))) fraction
  -- in scientific form: the first digit, a point and the others, and the exponent
  · refine isTextPart_append (isTextPart_append (isTextPart_append ?_
      (isTextPart_literal (by decide))) ?_) (isTextPart_repr _)
    · split
      · exact isTextPart_literal (by decide)
      next c hc => exact part fun x hx => Or.inl (hc ▸ hx)
      next c rest _ hc =>
        intro x hx
        rw [String.toList_ofList] at hx
        have hpart : IsTextPart (String.ofList (DecimalLayout.trimZeros d.digits.repr.toList)) :=
          part fun c hc => Or.inl hc
        have hmem : x ∈ c :: rest ∨ x = '.' := by
          simp only [List.mem_cons] at hx ⊢
          tauto
        rcases hmem with hmem | rfl
        · exact hpart x (by rwa [String.toList_ofList, hc])
        · decide
    · split <;> exact isTextPart_literal (by decide)

/-- The text of a number is made of digits, signs, a point and a letter for the exponent. -/
theorem isTextPart_text (n : Number) : IsTextPart n.text := by
  have minus : IsTextPart "-" := isTextPart_literal (by decide)
  cases n with
  | int i =>
    cases i with
    | ofNat n => exact isTextPart_repr n
    | negSucc n => exact isTextPart_append minus (isTextPart_repr _)
  | float f =>
    simp only [text, DecimalLayout.write]
    have sign : IsTextPart (if f.toBits.toNat < signWeight then "" else "-") := by
      split
      · exact isTextPart_literal (by decide)
      · exact minus
    split
    · refine isTextPart_append sign ?_
      split <;> exact isTextPart_literal (by decide)
    · exact isTextPart_append sign (isTextPart_writeDecimal _ _)

theorem writeDecimal_ne_nil (layout : DecimalLayout) (d : Decimal) :
    (layout.writeDecimal d).toList ≠ [] := by
  simp only [DecimalLayout.writeDecimal]
  split
  · split
    · simp
    · have padded (digits : List Char) (k : Nat) : (String.ofList (digits.take (k + 1) ++
          List.replicate (k + 1 - (digits.take (k + 1)).length) '0')).toList ≠ [] := by
        rw [String.toList_ofList]
        apply List.ne_nil_of_length_pos
        rw [List.length_append, List.length_replicate]
        omega
      split
      · rw [String.toList_append]
        exact List.append_ne_nil_of_left_ne_nil (padded _ _) _
      · rw [String.toList_append, String.toList_append]
        exact List.append_ne_nil_of_left_ne_nil
          (List.append_ne_nil_of_left_ne_nil (padded _ _) _) _
  · simp

theorem repr_ne_nil (n : Nat) : n.repr.toList ≠ [] := by
  rw [Nat.toList_repr]
  exact Nat.toDigits_ne_nil

/-- The text of a number is not empty. -/
theorem text_ne_nil (n : Number) : n.text.toList ≠ [] := by
  cases n with
  | int i =>
    cases i with
    | ofNat n => exact repr_ne_nil n
    | negSucc n => simp [text, Int.repr]
  | float f =>
    simp only [text, DecimalLayout.write]
    split
    · simp [DecimalLayout.document]
    · rw [String.toList_append]
      exact List.append_ne_nil_of_right_ne_nil _ (writeDecimal_ne_nil _ _)

end Number

/-! ## Values -/

namespace Json

mutual

/-- Whether two values are equal, where numbers are equal that have the same text. It is the best that can be
read off a text: integers and doubles may be written alike. -/
def Alike : Json → Json → Prop
  | .null, .null => True
  | .bool a, .bool b => a = b
  | .num a, .num b => a.text = b.text
  | .str a, .str b => a = b
  | .arr a, .arr b => AlikeItems a b
  | .obj a, .obj b => AlikeMembers a b
  | _, _ => False

/-- Whether two lists of values are alike item by item. -/
def AlikeItems : List Json → List Json → Prop
  | [], [] => True
  | a :: as, b :: bs => Alike a b ∧ AlikeItems as bs
  | _, _ => False

/-- Whether two lists of members have the same names and values that are alike. -/
def AlikeMembers : List (String × Json) → List (String × Json) → Prop
  | [], [] => True
  | (k, a) :: as, (l, b) :: bs => k = l ∧ Alike a b ∧ AlikeMembers as bs
  | _, _ => False

end

/-- Whether a character may stand directly after a value: a comma, or the end of an array or an object. -/
def isDelimiter (c : Char) : Bool :=
  c == ',' || c == ']' || c == '\x7d'

/-- Whether nothing stands directly after a value but a delimiter. -/
def Delimited (rest : List Char) : Prop :=
  ∀ c ∈ rest.head?, isDelimiter c = true

theorem delimited_cons {c : Char} (h : isDelimiter c = true) (rest : List Char) :
    Delimited (c :: rest) := by
  intro d hd
  cases hd
  exact h

/-- There are three delimiters. -/
theorem cases_delimiter {c : Char} (h : isDelimiter c = true) : c = ',' ∨ c = ']' ∨ c = '\x7d' := by
  simpa [isDelimiter, or_assoc] using h

/-- The text of a number ends where a delimiter follows. -/
theorem takeWhile_number {n : Number} {rest : List Char} (hrest : Delimited rest) :
    (n.text.toList ++ rest).takeWhile Number.isTextChar = n.text.toList := by
  rw [List.takeWhile_append_of_pos (Number.isTextPart_text n)]
  cases rest with
  | nil => simp
  | cons c rest =>
    have hc : isDelimiter c = true := hrest c rfl
    have hnot : ¬ Number.isTextChar c = true := by
      rcases cases_delimiter hc with rfl | rfl | rfl <;> decide
    rw [List.takeWhile_cons_of_neg hnot, List.append_nil]

/-- The text of a number can be told from what follows it. -/
theorem number_append_inj {n k : Number} {rest rest' : List Char} (hrest : Delimited rest)
    (hrest' : Delimited rest') (h : n.text.toList ++ rest = k.text.toList ++ rest') :
    n.text = k.text ∧ rest = rest' := by
  have htext : n.text.toList = k.text.toList := by
    rw [← takeWhile_number hrest, h, takeWhile_number hrest']
  refine ⟨String.toList_inj.mp htext, ?_⟩
  rw [htext] at h
  exact List.append_cancel_left h

/-- The characters of parts of a container: each but the first has a comma before it. -/
theorem join_cons (part : String) (parts : List String) :
    (join (part :: parts)).toList = part.toList ++ parts.flatMap (',' :: ·.toList) := by
  induction parts generalizing part with
  | nil => simp [join]
  | cons next parts ih =>
    have h := ih next
    simp only [join, String.toList_intercalate, List.map_cons] at h ⊢
    rw [List.intercalate_cons_cons, h]
    simp

/-- What stands after an item is a comma or the end of the container. -/
theorem delimited_parts {closing : Char} (hc : isDelimiter closing = true) (parts : List String)
    (rest : List Char) : Delimited (parts.flatMap (',' :: ·.toList) ++ closing :: rest) := by
  cases parts with
  | nil => exact delimited_cons hc rest
  | cons part parts => exact delimited_cons (by decide) _

/-- The kind of value whose text starts with a character, by the position of its constructor. -/
def kindStarting (c : Char) : Nat :=
  if Number.isTextChar c then 2
  else match c with
    | 'n' => 0
    | 't' => 1
    | 'f' => 1
    | '"' => 3
    | '[' => 4
    | '\x7b' => 5
    | _ => 6

/-- The first character of a text tells what kind of value it is of. -/
theorem text_head (j : Json) : ∃ c chars, j.text.toList = c :: chars ∧ kindStarting c = j.ctorIdx := by
  cases j with
  | null => exact ⟨_, _, rfl, rfl⟩
  | bool b => cases b <;> exact ⟨_, _, rfl, rfl⟩
  | num n =>
    obtain ⟨c, chars, h⟩ := List.exists_cons_of_ne_nil n.text_ne_nil
    exact ⟨c, chars, h, if_pos (Number.isTextPart_text n c (by rw [h]; exact List.mem_cons_self))⟩
  | str s => exact ⟨'"', _, by simp [text, quote]; rfl, rfl⟩
  | arr items => exact ⟨'[', _, by simp [text]; rfl, rfl⟩
  | obj members => exact ⟨'\x7b', _, by simp [text]; rfl, rfl⟩

/-- Values whose texts begin alike are of one kind. -/
theorem ctorIdx_eq {a b : Json} {rest rest' : List Char}
    (h : a.text.toList ++ rest = b.text.toList ++ rest') : a.ctorIdx = b.ctorIdx := by
  obtain ⟨c, chars, ha, hca⟩ := text_head a
  obtain ⟨d, chars', hb, hdb⟩ := text_head b
  rw [ha, hb, List.cons_append, List.cons_append, List.cons.injEq] at h
  rw [← hca, ← hdb, h.1]

/-- No text starts with a delimiter. -/
theorem text_append_ne {j : Json} {rest rest' : List Char} {c : Char} (hc : isDelimiter c = true) :
    j.text.toList ++ rest ≠ c :: rest' := by
  intro h
  obtain ⟨d, chars, hj, hd⟩ := text_head j
  rw [hj, List.cons_append, List.cons.injEq] at h
  obtain ⟨rfl, -⟩ := h
  have hsix : kindStarting d = 6 := by
    rcases cases_delimiter hc with rfl | rfl | rfl <;> decide
  rw [hsix] at hd
  cases j <;> cases hd

mutual

/-- A value of a known kind and what follows its text can be told from the characters. -/
theorem alike_of_kind {rest rest' : List Char} (hrest : Delimited rest) (hrest' : Delimited rest')
    (a b : Json) (hkind : a.ctorIdx = b.ctorIdx) :
    a.text.toList ++ rest = b.text.toList ++ rest' → Alike a b ∧ rest = rest' :=
  match a, b, hkind with
  | .null, .null, _ => fun h => ⟨trivial, by simpa [text] using h⟩
  | .bool a, .bool b, _ => fun h => by
    cases a <;> cases b <;> simp [text, Alike] at h ⊢ <;> exact h
  | .num n, .num k, _ => fun h => number_append_inj hrest hrest' h
  | .str s, .str t, _ => fun h => quote_append_inj h
  | .arr as, .arr bs, _ => fun h => by
    simp only [text, String.toList_append, List.append_assoc] at h
    exact alikeItems_of_append as bs (List.append_cancel_left h)
  | .obj as, .obj bs, _ => fun h => by
    simp only [text, String.toList_append, List.append_assoc] at h
    exact alikeMembers_of_append as bs (List.append_cancel_left h)

/-- Items of an array and what follows it can be told from the characters. -/
theorem alikeItems_of_append {rest rest' : List Char} (as bs : List Json)
    (h : (join (textItems as)).toList ++ ("]".toList ++ rest) =
      (join (textItems bs)).toList ++ ("]".toList ++ rest')) : AlikeItems as bs ∧ rest = rest' :=
  match as, bs, h with
  | [], [], h => ⟨trivial, by simpa [textItems, join] using h⟩
  | [], b :: bs, h => by
    rw [textItems, textItems, join_cons, List.append_assoc] at h
    exact absurd h.symm (text_append_ne (by decide))
  | a :: as, [], h => by
    rw [textItems, textItems, join_cons, List.append_assoc] at h
    exact absurd h (text_append_ne (by decide))
  | a :: as, b :: bs, h => by
    simp only [textItems, join_cons, List.append_assoc] at h
    obtain ⟨hab, hrest⟩ := alike_of_kind (delimited_parts (by decide) _ _)
      (delimited_parts (by decide) _ _) a b (ctorIdx_eq h) h
    obtain ⟨hitems, hrest⟩ := alikeItems_of_tail as bs hrest
    exact ⟨⟨hab, hitems⟩, hrest⟩

/-- Items after the first and what follows the array can be told from the characters. -/
theorem alikeItems_of_tail {rest rest' : List Char} (as bs : List Json)
    (h : (textItems as).flatMap (',' :: ·.toList) ++ (']' :: rest) =
      (textItems bs).flatMap (',' :: ·.toList) ++ (']' :: rest')) :
    AlikeItems as bs ∧ rest = rest' :=
  match as, bs, h with
  | [], [], h => ⟨trivial, by simpa [textItems] using h⟩
  | [], b :: bs, h => by simp [textItems] at h
  | a :: as, [], h => by simp [textItems] at h
  | a :: as, b :: bs, h => by
    simp only [textItems, List.flatMap_cons, List.cons_append, List.append_assoc,
      List.cons.injEq, true_and] at h
    obtain ⟨hab, hrest⟩ := alike_of_kind (delimited_parts (by decide) _ _)
      (delimited_parts (by decide) _ _) a b (ctorIdx_eq h) h
    obtain ⟨hitems, hrest⟩ := alikeItems_of_tail as bs hrest
    exact ⟨⟨hab, hitems⟩, hrest⟩

/-- Members of an object and what follows it can be told from the characters. -/
theorem alikeMembers_of_append {rest rest' : List Char} (as bs : List (String × Json))
    (h : (join (textMembers as)).toList ++ ("\x7d".toList ++ rest) =
      (join (textMembers bs)).toList ++ ("\x7d".toList ++ rest')) :
    AlikeMembers as bs ∧ rest = rest' :=
  match as, bs, h with
  | [], [], h => ⟨trivial, by simpa [textMembers, join] using h⟩
  | [], (l, b) :: bs, h => by simp [textMembers, join, quote] at h
  | (k, a) :: as, [], h => by simp [textMembers, join, quote] at h
  | (k, a) :: as, (l, b) :: bs, h => by
    simp only [textMembers, join_cons, String.toList_append, List.append_assoc] at h
    obtain ⟨hname, h⟩ := quote_append_inj h
    have h := List.append_cancel_left h
    obtain ⟨hab, hrest⟩ := alike_of_kind (delimited_parts (by decide) _ _)
      (delimited_parts (by decide) _ _) a b (ctorIdx_eq h) h
    obtain ⟨hmembers, hrest⟩ := alikeMembers_of_tail as bs hrest
    exact ⟨⟨hname, hab, hmembers⟩, hrest⟩

/-- Members after the first and what follows the object can be told from the characters. -/
theorem alikeMembers_of_tail {rest rest' : List Char} (as bs : List (String × Json))
    (h : (textMembers as).flatMap (',' :: ·.toList) ++ ('\x7d' :: rest) =
      (textMembers bs).flatMap (',' :: ·.toList) ++ ('\x7d' :: rest')) :
    AlikeMembers as bs ∧ rest = rest' :=
  match as, bs, h with
  | [], [], h => ⟨trivial, by simpa [textMembers] using h⟩
  | [], (l, b) :: bs, h => by simp [textMembers] at h
  | (k, a) :: as, [], h => by simp [textMembers] at h
  | (k, a) :: as, (l, b) :: bs, h => by
    simp only [textMembers, List.flatMap_cons, String.toList_append, List.cons_append,
      List.append_assoc, List.cons.injEq, true_and] at h
    obtain ⟨hname, h⟩ := quote_append_inj h
    have h := List.append_cancel_left h
    obtain ⟨hab, hrest⟩ := alike_of_kind (delimited_parts (by decide) _ _)
      (delimited_parts (by decide) _ _) a b (ctorIdx_eq h) h
    obtain ⟨hmembers, hrest⟩ := alikeMembers_of_tail as bs hrest
    exact ⟨⟨hname, hab, hmembers⟩, hrest⟩

end

/-- A value and what follows its text can be told from the characters. -/
theorem alike_of_append {a b : Json} {rest rest' : List Char} (hrest : Delimited rest)
    (hrest' : Delimited rest') (h : a.text.toList ++ rest = b.text.toList ++ rest') :
    Alike a b ∧ rest = rest' :=
  alike_of_kind hrest hrest' a b (ctorIdx_eq h) h

mutual

/-- Values that are alike have the same text. -/
theorem Alike.text_eq : {a b : Json} → Alike a b → a.text = b.text
  | .null, .null, _ => rfl
  | .bool _, .bool _, h => by rw [show _ = _ from h]
  | .num _, .num _, h => h
  | .str _, .str _, h => by rw [show _ = _ from h]
  | .arr as, .arr bs, h => by
    have hitems : AlikeItems as bs := h
    rw [text, text, hitems.texts_eq]
  | .obj as, .obj bs, h => by
    have hmembers : AlikeMembers as bs := h
    rw [text, text, hmembers.texts_eq]

theorem AlikeItems.texts_eq : {as bs : List Json} → AlikeItems as bs → textItems as = textItems bs
  | [], [], _ => rfl
  | _ :: _, _ :: _, h => by rw [textItems, textItems, h.1.text_eq, AlikeItems.texts_eq h.2]

theorem AlikeMembers.texts_eq : {as bs : List (String × Json)} → AlikeMembers as bs →
    textMembers as = textMembers bs
  | [], [], _ => rfl
  | (_, _) :: _, (_, _) :: _, h => by
    rw [textMembers, textMembers, h.1, h.2.1.text_eq, AlikeMembers.texts_eq h.2.2]

end

/-- Values with the same text are alike. For a key made of several texts this says which requests it tells
apart. -/
theorem text_inj {a b : Json} (h : a.text = b.text) : Alike a b := by
  have hend : Delimited [] := fun c hc => by cases hc
  exact (alike_of_append hend hend (by rw [h])).1

end Json

end DocumentQuery
