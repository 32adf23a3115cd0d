import Mathlib.Data.List.TakeWhile
import Mathlib.Data.Fin.Basic

/-!
# Base64

Bytes as text, six bits a character, over any alphabet of 64 characters: `encode` and `decode`
without padding, `encodePadded` and `decodePadded` with it. A decoder accepts only what an encoder
may have written: the bits that the last character does not need are zero.
-/

namespace Base64

variable (l : List UInt8)

/-! ## Six bits at a time -/

def sextets : List UInt8 → List (Fin 64)
  | [] => []
  | [a] => [.ofNat 64 (a.toNat / 4), .ofNat 64 (a.toNat % 4 * 16)]
  | [a, b] =>
    [.ofNat 64 (a.toNat / 4), .ofNat 64 (a.toNat % 4 * 16 + b.toNat / 16),
      .ofNat 64 (b.toNat % 16 * 4)]
  | a :: b :: c :: rest =>
    .ofNat 64 (a.toNat / 4) :: .ofNat 64 (a.toNat % 4 * 16 + b.toNat / 16) ::
      .ofNat 64 (b.toNat % 16 * 4 + c.toNat / 64) :: .ofNat 64 (c.toNat % 64) :: sextets rest

def bytes : List (Fin 64) → Option (List UInt8)
  | [] => some []
  | [_] => none
  | [x, y] => if y.val % 16 = 0 then some [.ofNat (x.val * 4 + y.val / 16)] else none
  | [x, y, z] =>
    if z.val % 4 = 0 then
      some [.ofNat (x.val * 4 + y.val / 16), .ofNat (y.val % 16 * 16 + z.val / 4)]
    else none
  | x :: y :: z :: w :: rest =>
    (bytes rest).map fun l =>
      .ofNat (x.val * 4 + y.val / 16) :: .ofNat (y.val % 16 * 16 + z.val / 4) ::
        .ofNat (z.val % 4 * 64 + w.val) :: l

theorem val_ofNat {n : Nat} (h : n < 64) : (Fin.ofNat 64 n).val = n := Nat.mod_eq_of_lt h

theorem byte_eq {a : UInt8} {n : Nat} (h : n = a.toNat) : UInt8.ofNat n = a := by
  rw [h, UInt8.ofNat_toNat]

theorem bytes_sextets : bytes (sextets l) = some l := by
  induction l using sextets.induct with
  | case1 => rfl
  | case2 a =>
    have ha := a.toNat_lt
    rw [sextets, bytes, val_ofNat (by omega), val_ofNat (by omega), if_pos (by omega),
      byte_eq (a := a) (by omega)]
  | case3 a b =>
    have ha := a.toNat_lt
    have hb := b.toNat_lt
    rw [sextets, bytes, val_ofNat (by omega), val_ofNat (by omega), val_ofNat (by omega),
      if_pos (by omega), byte_eq (a := a) (by omega), byte_eq (a := b) (by omega)]
  | case4 a b c rest ih =>
    have ha := a.toNat_lt
    have hb := b.toNat_lt
    have hc := c.toNat_lt
    rw [sextets, bytes, ih, val_ofNat (by omega), val_ofNat (by omega), val_ofNat (by omega),
      val_ofNat (by omega), Option.map_some, byte_eq (a := a) (by omega),
        byte_eq (a := b) (by omega),
      byte_eq (a := c) (by omega)]

theorem length_sextets : (sextets l).length = (4 * l.length + 2) / 3 := by
  induction l using sextets.induct with
  | case1 => rfl
  | case2 a => simp [sextets]
  | case3 a b => simp [sextets]
  | case4 a b c rest ih =>
    simp only [sextets, List.length_cons]
    omega

/-! ## Alphabets -/

structure Alphabet where
  char : Fin 64 → Char
  value : Char → Option (Fin 64)
  value_char : ∀ i, value (char i) = some i
  /-- The characters are ASCII. -/
  size : ∀ i, (char i).utf8Size = 1
  ne_pad : ∀ i, char i ≠ '='

/-- Letters, digits and two more characters. -/
def table (last : List Char) : List Char :=
  "ABCDEFGHIJKLMNOPQRSTUVWXYZabcdefghijklmnopqrstuvwxyz0123456789".toList ++ last

def valueIn (table : List Char) (c : Char) : Option (Fin 64) :=
  if c ∈ table then some (.ofNat 64 (table.idxOf c)) else none

def standard : Alphabet where
  char i := (table ['+', '/']).getD i 'A'
  value := valueIn (table ['+', '/'])
  value_char := by decide +kernel
  size := by decide +kernel
  ne_pad := by decide +kernel

def urlSafe : Alphabet where
  char i := (table ['-', '_']).getD i 'A'
  value := valueIn (table ['-', '_'])
  value_char := by decide +kernel
  size := by decide +kernel
  ne_pad := by decide +kernel

theorem urlSafe_ne_colon : ∀ i, urlSafe.char i ≠ ':' := by decide +kernel

/-! ## Texts -/

variable (A : Alphabet)

def encode (l : List UInt8) : List Char := (sextets l).map A.char

def decode (text : List Char) : Option (List UInt8) := (text.mapM A.value).bind bytes

/-- As many padding characters as make the length a multiple of four. -/
def padding (n : Nat) : List Char := List.replicate ((4 - n % 4) % 4) '='

def encodePadded (l : List UInt8) : List Char := encode A l ++ padding (encode A l).length

def decodePadded (text : List Char) : Option (List UInt8) :=
  let pads := (text.reverse.takeWhile (· = '=')).length
  if text.length % 4 = 0 ∧ pads ≤ 2 then decode A (text.take (text.length - pads)) else none

variable {A}

theorem decode_encode : decode A (encode A l) = some l := by
  have hvalues : ∀ xs : List (Fin 64), (xs.map A.char).mapM A.value = some xs := by
    intro xs
    induction xs with
    | nil => rfl
    | cons x xs ih => simp [A.value_char, ih]
  rw [decode, encode, hvalues, Option.bind_some, bytes_sextets]

theorem length_encode : (encode A l).length = (4 * l.length + 2) / 3 := by
  rw [encode, List.length_map, length_sextets]

theorem mem_encode {c : Char} {l : List UInt8} (h : c ∈ encode A l) : ∃ i, A.char i = c := by
  obtain ⟨i, -, hi⟩ := List.mem_map.mp h
  exact ⟨i, hi⟩

theorem urlSafe_char {c : Char} {l : List UInt8} (h : c ∈ encode urlSafe l) :
    c.utf8Size = 1 ∧ c ≠ ':' := by
  obtain ⟨i, rfl⟩ := mem_encode h
  exact ⟨urlSafe.size i, urlSafe_ne_colon i⟩

end Base64
