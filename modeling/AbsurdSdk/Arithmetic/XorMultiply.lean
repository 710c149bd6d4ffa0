import Mathlib.Data.Fintype.EquivFin
import Mathlib.Data.Nat.ModEq
import Mathlib.SetTheory.Cardinal.Finite
import Mathlib.Tactic.Lemma

/-! Hashes that take in a word by an exclusive or and a multiplication by an odd constant. Their low
bits depend on the low bits of the words alone, and each word spreads them evenly. -/

namespace AbsurdSdk.Arithmetic

variable {w k v : ℕ}

def absorb (p h x : BitVec w) : BitVec w := (h ^^^ x) * p

def hashFrom (p h : BitVec w) (xs : List (BitVec w)) : BitVec w := xs.foldl (absorb p) h

lemma mul_odd_injective {p : BitVec w} (hp : p.toNat % 2 = 1) :
    Function.Injective fun x : BitVec w => x * p := by
  intro x y hxy
  have hmod : x.toNat * p.toNat ≡ y.toNat * p.toNat [MOD 2 ^ w] := by
    have hnat := congrArg BitVec.toNat hxy
    rwa [BitVec.toNat_mul, BitVec.toNat_mul] at hnat
  have htwo : Nat.gcd 2 p.toNat = 1 := by rw [Nat.gcd_rec, hp, Nat.gcd_one_left]
  have hcoprime : Nat.gcd (2 ^ w) p.toNat = 1 := Nat.Coprime.pow_left w htwo
  have hcancel := hmod.cancel_right_of_coprime hcoprime
  exact BitVec.eq_of_toNat_eq (Nat.ModEq.eq_of_lt_of_lt hcancel x.isLt y.isLt)

lemma absorb_injective_left {p : BitVec w} (hp : p.toNat % 2 = 1) (x : BitVec w) :
    Function.Injective fun h => absorb p h x := by
  intro h h' heq
  have hxor : h ^^^ x = h' ^^^ x := mul_odd_injective hp heq
  rwa [BitVec.xor_left_inj] at hxor

lemma absorb_injective_right {p : BitVec w} (hp : p.toNat % 2 = 1) (h : BitVec w) :
    Function.Injective (absorb p h) := by
  intro x y heq
  have hxor : h ^^^ x = h ^^^ y := mul_odd_injective hp heq
  rwa [BitVec.xor_right_inj] at hxor

lemma hashFrom_injective {p : BitVec w} (hp : p.toNat % 2 = 1) (xs : List (BitVec w)) :
    Function.Injective fun h => hashFrom p h xs := by
  induction xs with
  | nil => exact Function.injective_id
  | cons x xs ih => exact ih.comp (absorb_injective_left hp x)

lemma hashFrom_append (p h : BitVec w) (xs ys : List (BitVec w)) :
    hashFrom p h (xs ++ ys) = hashFrom p (hashFrom p h xs) ys := List.foldl_append

lemma hashFrom_bijective {p : BitVec w} (hp : p.toNat % 2 = 1) (h : BitVec w)
    (pre post : List (BitVec w)) :
    Function.Bijective fun x => hashFrom p h (pre ++ x :: post) := by
  have : Finite (BitVec w) := Finite.of_injective BitVec.toFin fun _ _ => BitVec.eq_of_toFin_eq
  apply Finite.injective_iff_bijective.1
  intro x y heq
  simp only [hashFrom_append] at heq
  exact absorb_injective_right hp _ (hashFrom_injective hp post heq)

lemma setWidth_hashFrom (hk : k ≤ w) (p h : BitVec w) (xs : List (BitVec w)) :
    (hashFrom p h xs).setWidth k =
      hashFrom (p.setWidth k) (h.setWidth k) (xs.map (BitVec.setWidth k)) := by
  induction xs generalizing h with
  | nil => rfl
  | cons x xs ih =>
    have hstep : (absorb p h x).setWidth k =
        absorb (p.setWidth k) (h.setWidth k) (x.setWidth k) := by
      rw [absorb, absorb, BitVec.setWidth_mul _ _ hk, BitVec.setWidth_xor]
    exact (ih _).trans (by rw [hstep]; rfl)

lemma setWidth_eq_iff {x : BitVec v} {d : BitVec k} :
    x.setWidth k = d ↔ x.toNat % 2 ^ k = d.toNat := by
  rw [← BitVec.toNat_inj, BitVec.toNat_setWidth]

def lowBitsEquiv (hk : k ≤ v) (d : BitVec k) :
    {x : BitVec v // x.setWidth k = d} ≃ Fin (2 ^ (v - k)) where
  toFun x := ⟨x.1.toNat / 2 ^ k, by
    rw [Nat.div_lt_iff_lt_mul (Nat.two_pow_pos k), ← Nat.pow_add, Nat.sub_add_cancel hk]
    exact x.1.isLt⟩
  invFun q := ⟨BitVec.ofNat v (2 ^ k * q + d.toNat), by
    rw [setWidth_eq_iff, BitVec.toNat_ofNat, Nat.mod_mod_of_dvd _ (Nat.pow_dvd_pow 2 hk),
      Nat.mul_add_mod, Nat.mod_eq_of_lt d.isLt]⟩
  left_inv x := by
    have hx := setWidth_eq_iff.1 x.2
    apply Subtype.ext
    apply BitVec.eq_of_toNat_eq
    rw [BitVec.toNat_ofNat, ← hx, Nat.div_add_mod, Nat.mod_eq_of_lt x.1.isLt]
  right_inv q := by
    have hfits : 2 ^ k * q.1 + d.toNat < 2 ^ v := by
      have hq : 2 ^ k * (q.1 + 1) ≤ 2 ^ k * 2 ^ (v - k) := Nat.mul_le_mul_left _ q.isLt
      rw [← Nat.pow_add, Nat.add_sub_cancel' hk] at hq
      have := d.isLt
      rw [Nat.mul_add] at hq
      omega
    apply Fin.ext
    change (BitVec.ofNat v (2 ^ k * q + d.toNat)).toNat / 2 ^ k = q
    rw [BitVec.toNat_ofNat, Nat.mod_eq_of_lt hfits, Nat.mul_add_div (Nat.two_pow_pos k),
      Nat.div_eq_of_lt d.isLt, Nat.add_zero]

/-- As one word of the input varies, each value of the low bits of its hash comes equally often. -/
theorem card_hashFrom_eq (hk : k ≤ v) (hv : v ≤ w) {p : BitVec w} (hp : p.toNat % 2 = 1)
    (hlow : 0 < k) (h : BitVec w) (pre post : List (BitVec w)) (d : BitVec k) :
    Nat.card {x : BitVec v //
      (hashFrom p h (pre ++ x.setWidth w :: post)).setWidth k = d} = 2 ^ (v - k) := by
  have hodd : (p.setWidth k).toNat % 2 = 1 := by
    rw [BitVec.toNat_setWidth, Nat.mod_mod_of_dvd _ (dvd_pow_self 2 hlow.ne'), hp]
  obtain ⟨c, hc, hunique⟩ := (hashFrom_bijective hodd (h.setWidth k)
    (pre.map (BitVec.setWidth k)) (post.map (BitVec.setWidth k))).existsUnique d
  have hiff (x : BitVec v) :
      (hashFrom p h (pre ++ x.setWidth w :: post)).setWidth k = d ↔ x.setWidth k = c := by
    rw [setWidth_hashFrom (hk.trans hv), List.map_append, List.map_cons,
      BitVec.setWidth_setWidth_of_le _ (hk.trans hv)]
    exact ⟨hunique _, fun hx => hx ▸ hc⟩
  rw [Nat.card_congr (Equiv.subtypeEquivRight hiff), Nat.card_congr (lowBitsEquiv hk c),
    Nat.card_fin]

end AbsurdSdk.Arithmetic
