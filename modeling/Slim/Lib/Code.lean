import Mathlib.Algebra.Group.Nat.Defs
import Mathlib.Data.List.Basic

/-!
# Self-delimiting encodings

`Delimits enc P`: a value that meets `P` can be read back from the front of a text that starts with
its encoding, and what follows it is what is left. Such encodings may be written one after the
other, and be made optional by a mark in front; fixed-width numbers and bytes after their length are
such.
-/

namespace Code

variable {α β : Type*} {enc : α → List β} {P : α → Prop}

/-- The encoding of a value shows where it ends. -/
def Delimits (enc : α → List β) (P : α → Prop) : Prop :=
  ∀ a b r s, P a → P b → enc a ++ r = enc b ++ s → a = b ∧ r = s

theorem delimits_of_length {n : Nat} (hl : ∀ a, P a → (enc a).length = n)
    (hi : ∀ a b, P a → P b → enc a = enc b → a = b) : Delimits enc P := by
  intro a b r s ha hb h
  obtain ⟨he, hr⟩ := List.append_inj h ((hl a ha).trans (hl b hb).symm)
  exact ⟨hi a b ha hb he, hr⟩

theorem Delimits.append {γ : Type*} {enc' : γ → List β} {Q : γ → Prop} (h : Delimits enc P)
    (h' : Delimits enc' Q) :
    Delimits (fun x : α × γ => enc x.1 ++ enc' x.2) fun x => P x.1 ∧ Q x.2 := by
  intro a b r s ha hb heq
  rw [List.append_assoc, List.append_assoc] at heq
  obtain ⟨hfst, heq⟩ := h _ _ _ _ ha.1 hb.1 heq
  obtain ⟨hsnd, hr⟩ := h' _ _ _ _ ha.2 hb.2 heq
  exact ⟨Prod.ext hfst hsnd, hr⟩

theorem Delimits.comp {γ : Type*} {Q : γ → Prop} (h : Delimits enc P) (f : γ → α)
    (hinj : ∀ c d, f c = f d → c = d) (hP : ∀ c, Q c → P (f c)) :
    Delimits (fun c => enc (f c)) Q := by
  intro a b r s ha hb heq
  obtain ⟨hab, hr⟩ := h _ _ _ _ (hP a ha) (hP b hb) heq
  exact ⟨hinj a b hab, hr⟩

/-- One value after the other, none of them encoded as nothing. -/
theorem Delimits.flatMap_inj (h : Delimits enc P) (hne : ∀ a, enc a ≠ []) {l l' : List α}
    (hl : ∀ a ∈ l, P a) (hl' : ∀ a ∈ l', P a) (heq : l.flatMap enc = l'.flatMap enc) : l = l' := by
  induction l generalizing l' with
  | nil =>
    cases l' with
    | nil => rfl
    | cons b l' => exact absurd (List.append_eq_nil_iff.mp heq.symm).1 (hne b)
  | cons a l ih =>
    cases l' with
    | nil => exact absurd (List.append_eq_nil_iff.mp heq).1 (hne a)
    | cons b l' =>
      obtain ⟨rfl, hrest⟩ := h a b _ _ (hl a List.mem_cons_self) (hl' b List.mem_cons_self) heq
      rw [ih (fun c hc => hl c (List.mem_cons_of_mem a hc))
        (fun c hc => hl' c (List.mem_cons_of_mem a hc)) hrest]

theorem delimits_prefixed {len : Nat → List UInt8} {n bound : Nat} (hn : ∀ k, (len k).length = n)
    (hinj : ∀ {k l}, k < bound → l < bound → len k = len l → k = l) :
    Delimits (fun data : List UInt8 => len data.length ++ data) fun data =>
      data.length < bound := by
  intro a b r s ha hb h
  rw [List.append_assoc, List.append_assoc] at h
  obtain ⟨hlen, h⟩ := List.append_inj h ((hn _).trans (hn _).symm)
  exact List.append_inj h (hinj ha hb hlen)

/-- A value that may be absent, behind a mark that tells. -/
def optional (absent present : β) (enc : α → List β) : Option α → List β
  | none => [absent]
  | some a => present :: enc a

theorem Delimits.optional (h : Delimits enc P) {absent present : β} (hne : absent ≠ present) :
    Delimits (optional absent present enc) fun o => ∀ a ∈ o, P a := by
  intro a b r s ha hb heq
  cases a with
  | none =>
    cases b with
    | none => exact ⟨rfl, (List.cons.inj heq).2⟩
    | some b => exact absurd (List.cons.inj heq).1 hne
  | some a =>
    cases b with
    | none => exact absurd (List.cons.inj heq).1.symm hne
    | some b =>
      obtain ⟨hab, hr⟩ := h a b r s (ha a rfl) (hb b rfl) (List.cons.inj heq).2
      exact ⟨congrArg some hab, hr⟩

/-- The `n` low bytes of `v`, the lowest one first. -/
def leBytes : Nat → Nat → List UInt8
  | 0, _ => []
  | n + 1, v => UInt8.ofNat v :: leBytes n (v / 256)

@[simp] theorem length_leBytes (n v : Nat) : (leBytes n v).length = n := by
  induction n generalizing v with
  | zero => rfl
  | succ n ih => simp [leBytes, ih]

theorem leBytes_inj {n v w : Nat} (hv : v < 256 ^ n) (hw : w < 256 ^ n)
    (h : leBytes n v = leBytes n w) : v = w := by
  induction n generalizing v w with
  | zero => omega
  | succ n ih =>
    obtain ⟨hlow, hhigh⟩ := List.cons.inj h
    have hdiv := ih (by rw [Nat.pow_succ] at hv; omega) (by rw [Nat.pow_succ] at hw; omega) hhigh
    have hmod := congrArg UInt8.toNat hlow
    simp only [UInt8.toNat_ofNat'] at hmod
    omega

theorem delimits_leBytes (n : Nat) : Delimits (leBytes n) (· < 256 ^ n) :=
  delimits_of_length (fun v _ => length_leBytes n v) fun _ _ hv hw => leBytes_inj hv hw

def lengthPrefixed (n : Nat) (data : List UInt8) : List UInt8 := leBytes n data.length ++ data

theorem delimits_lengthPrefixed (n : Nat) :
    Delimits (lengthPrefixed n) fun data => data.length < 256 ^ n :=
  delimits_prefixed (length_leBytes n) leBytes_inj

end Code
