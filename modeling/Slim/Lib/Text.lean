import Mathlib.Data.List.TakeWhile

/-!
# Fields of a text

A text is a list of characters; a separator cuts it into fields. `splitn` and `rsplitOnce` are the
functions of these names on string slices, and each lemma says what they make of a text that was
joined from fields without the separator.
-/

namespace Text

variable {α : Type} [DecidableEq α] (sep : α) {a : List α} {c : Char}

/-- Up to `n` fields; the last one is what is left. -/
def splitn : Nat → List α → List (List α)
  | 0, _ => []
  | 1, l => [l]
  | n + 2, l =>
    match l.dropWhile (· ≠ sep) with
    | [] => [l]
    | _ :: rest => l.takeWhile (· ≠ sep) :: splitn (n + 1) rest

def rsplitOnce (l : List α) : Option (List α × List α) :=
  match l.reverse.dropWhile (· ≠ sep) with
  | [] => none
  | _ :: init => some (init.reverse, (l.reverse.takeWhile (· ≠ sep)).reverse)

variable {sep}

theorem takeWhile_append_sep (h : sep ∉ a) (rest : List α) :
    (a ++ sep :: rest).takeWhile (· ≠ sep) = a := by
  rw [List.takeWhile_append_of_pos]
  · simp
  · intro c hc
    simpa using fun e : c = sep => h (e ▸ hc)

theorem dropWhile_append_sep (h : sep ∉ a) (rest : List α) :
    (a ++ sep :: rest).dropWhile (· ≠ sep) = sep :: rest := by
  rw [List.dropWhile_append_of_pos]
  · simp
  · intro c hc
    simpa using fun e : c = sep => h (e ▸ hc)

@[simp] theorem splitn_one (l : List α) : splitn sep 1 l = [l] := rfl

theorem splitn_append (h : sep ∉ a) (n : Nat) (rest : List α) :
    splitn sep (n + 2) (a ++ sep :: rest) = a :: splitn sep (n + 1) rest := by
  simp only [splitn, dropWhile_append_sep h, takeWhile_append_sep h]

theorem rsplitOnce_append {b : List α} (h : sep ∉ b) (a : List α) :
    rsplitOnce sep (a ++ sep :: b) = some (a, b) := by
  have hb : sep ∉ b.reverse := by simpa using h
  have hrev : (a ++ sep :: b).reverse = b.reverse ++ sep :: a.reverse := by simp
  simp only [rsplitOnce, hrev, dropWhile_append_sep hb, takeWhile_append_sep hb,
    List.reverse_reverse]

/-! ## White space -/

/-- `char::is_whitespace`: the characters with the Unicode property `White_Space`. -/
def isWhitespace (c : Char) : Bool :=
  let n := c.toNat
  (9 ≤ n ∧ n ≤ 13) ∨ (0x2000 ≤ n ∧ n ≤ 0x200A) ∨
    n ∈ [0x20, 0x85, 0xA0, 0x1680, 0x2028, 0x2029, 0x202F, 0x205F, 0x3000]

/-! ## Numbers -/

/-- The digits after a plus sign, if there is one. -/
def unsigned : List Char → List Char
  | '+' :: digits => digits
  | digits => digits

/-- `str::parse` to a number below `bound`: digits, perhaps after a plus sign. -/
def parseUnsigned (bound : Nat) (text : List Char) : Option Nat :=
  let digits := unsigned text
  if digits ≠ [] ∧ digits.all Char.isDigit then
    let n := Nat.ofDigitChars 10 digits 0
    if n < bound then some n else none
  else none

theorem isDigit_of_mem_toDigits {n : Nat} (h : c ∈ Nat.toDigits 10 n) : c.isDigit :=
  Nat.isDigit_of_mem_toDigits (by decide) (by decide) h

theorem not_mem_toDigits (hc : c.isDigit = false) (n : Nat) : c ∉ Nat.toDigits 10 n := by
  intro h
  rw [isDigit_of_mem_toDigits h] at hc
  cases hc

theorem unsigned_toDigits (n : Nat) : unsigned (Nat.toDigits 10 n) = Nat.toDigits 10 n := by
  unfold unsigned
  split
  · next rest hrest =>
    exact absurd (hrest ▸ List.mem_cons_self) (not_mem_toDigits (by decide) n)
  · rfl

theorem parseUnsigned_toDigits {bound n : Nat} (h : n < bound) :
    parseUnsigned bound (Nat.toDigits 10 n) = some n := by
  have hdigits : (Nat.toDigits 10 n).all Char.isDigit :=
    List.all_eq_true.mpr fun c hc => isDigit_of_mem_toDigits hc
  simp only [parseUnsigned, unsigned_toDigits]
  rw [if_pos ⟨Nat.toDigits_ne_nil, hdigits⟩, Nat.ofDigitChars_ten_toDigits, if_pos h]

end Text
