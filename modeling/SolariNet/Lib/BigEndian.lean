/-
# Numbers as fixed-width big-endian byte strings

`toBytes w n` is the `w` low bytes of `n`, most significant first; `ofBytes` reads a byte
string back as a number.
-/
import Mathlib.Data.Nat.ModEq

namespace SolariNet.Lib

/-- The low `w` bytes of `n`, most significant first. -/
def toBytes : Nat → Nat → List UInt8
  | 0, _ => []
  | w + 1, n => UInt8.ofNat (n / 256 ^ w) :: toBytes w n

/-- The number a byte string denotes, most significant byte first. -/
def ofBytes : List UInt8 → Nat
  | [] => 0
  | b :: bs => b.toNat * 256 ^ bs.length + ofBytes bs

@[simp] theorem length_toBytes (w n : Nat) : (toBytes w n).length = w := by
  induction w with
  | zero => rfl
  | succ w ih => simp [toBytes, ih]

theorem ofBytes_lt (bs : List UInt8) : ofBytes bs < 256 ^ bs.length := by
  induction bs with
  | nil => simp [ofBytes]
  | cons b bs ih =>
    have hb : b.toNat + 1 ≤ 256 := b.toNat_lt
    calc ofBytes (b :: bs) < b.toNat * 256 ^ bs.length + 256 ^ bs.length := by
          simp only [ofBytes]; omega
      _ = (b.toNat + 1) * 256 ^ bs.length := by rw [Nat.add_mul, Nat.one_mul]
      _ ≤ 256 * 256 ^ bs.length := Nat.mul_le_mul_right _ hb
      _ = 256 ^ (b :: bs).length := by rw [List.length_cons, Nat.pow_succ, Nat.mul_comm]

/-- Writing a number in `w` bytes and reading it back keeps it modulo `256 ^ w`. -/
theorem ofBytes_toBytes (w n : Nat) : ofBytes (toBytes w n) = n % 256 ^ w := by
  induction w with
  | zero => simp [toBytes, ofBytes, Nat.mod_one]
  | succ w ih =>
    have hb : (UInt8.ofNat (n / 256 ^ w)).toNat = n / 256 ^ w % 256 := UInt8.toNat_ofNat'
    rw [toBytes, ofBytes, length_toBytes, hb, Nat.pow_succ, Nat.mod_mul, Nat.mul_comm]
    omega

theorem ofBytes_toBytes_of_lt {w n : Nat} (h : n < 256 ^ w) : ofBytes (toBytes w n) = n := by
  rw [ofBytes_toBytes, Nat.mod_eq_of_lt h]

theorem toBytes_mul_add (w a n : Nat) : toBytes w (a * 256 ^ w + n) = toBytes w n := by
  induction w generalizing a n with
  | zero => rfl
  | succ w ih =>
    have hdiv : (a * 256 ^ (w + 1) + n) / 256 ^ w = n / 256 ^ w + 256 * a := by
      rw [Nat.pow_succ, Nat.add_comm, ← Nat.mul_assoc, Nat.mul_right_comm,
        Nat.add_mul_div_right _ _ (Nat.pow_pos (by decide)), Nat.mul_comm a]
    have hhead : UInt8.ofNat (n / 256 ^ w + 256 * a) = UInt8.ofNat (n / 256 ^ w) :=
      UInt8.toNat_inj.1 (by simp)
    rw [toBytes, toBytes, hdiv, hhead, Nat.pow_succ, Nat.mul_comm (256 ^ w), ← Nat.mul_assoc, ih]

theorem toBytes_ofBytes (bs : List UInt8) : toBytes bs.length (ofBytes bs) = bs := by
  induction bs with
  | nil => rfl
  | cons b bs ih =>
    have hlt := ofBytes_lt bs
    have hdiv : (b.toNat * 256 ^ bs.length + ofBytes bs) / 256 ^ bs.length = b.toNat := by
      rw [Nat.add_comm, Nat.add_mul_div_right _ _ (Nat.pow_pos (by decide)),
        Nat.div_eq_of_lt hlt, Nat.zero_add]
    rw [List.length_cons, toBytes, ofBytes, hdiv, UInt8.ofNat_toNat, toBytes_mul_add, ih]

/-! ## Byte strings behind their lengths -/

open List

def field (w : Nat) (v : List UInt8) : List UInt8 := toBytes w v.length ++ v

/-- A sequence of byte strings, each behind its length. -/
def fields (w : Nat) (vs : List (List UInt8)) : List UInt8 := vs.flatMap (field w)

/-- A field can be told from what follows it. -/
theorem field_append_inj {w : Nat} {a b s t : List UInt8} (ha : a.length < 256 ^ w)
    (hb : b.length < 256 ^ w) (h : field w a ++ s = field w b ++ t) : a = b ∧ s = t := by
  rw [field, field, append_assoc, append_assoc] at h
  obtain ⟨hlen, hrest⟩ := append_inj h (by rw [length_toBytes, length_toBytes])
  have hab : a.length = b.length := by
    rw [← ofBytes_toBytes_of_lt ha, ← ofBytes_toBytes_of_lt hb, hlen]
  exact append_inj hrest hab

theorem fields_inj {w : Nat} (hw : 0 < w) {as bs : List (List UInt8)}
    (ha : ∀ v ∈ as, v.length < 256 ^ w) (hb : ∀ v ∈ bs, v.length < 256 ^ w)
    (h : fields w as = fields w bs) : as = bs := by
  have hne : ∀ v vs, fields w (v :: vs) ≠ [] := by
    intro v vs hnil
    have hlen := congrArg List.length hnil
    rw [fields, flatMap_cons, field, length_append, length_append, length_toBytes,
      length_nil] at hlen
    omega
  induction as generalizing bs with
  | nil =>
    cases bs with
    | nil => rfl
    | cons b bs => exact absurd h.symm (hne b bs)
  | cons a as ih =>
    cases bs with
    | nil => exact absurd h (hne a as)
    | cons b bs =>
      obtain ⟨rfl, hrest⟩ := field_append_inj (ha a mem_cons_self) (hb b mem_cons_self) h
      rw [ih (fun v hv => ha v (mem_cons_of_mem _ hv))
        (fun v hv => hb v (mem_cons_of_mem _ hv)) hrest]

end SolariNet.Lib
