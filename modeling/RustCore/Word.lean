import Mathlib.Order.Basic
import Mathlib.Algebra.Group.Nat.Basic
import Mathlib.Data.Nat.Defs
import Mathlib.Algebra.Order.Ring.Nat
import Mathlib.Data.String.Basic

/-!
# Machine words

The sources compute with `u64` (clock readings, counters, latencies) and frame their messages
with a big-endian `u32`; a timestamp is serialized as two little-endian `u64`. A `u64` is a
`UInt64`, whose `+` wraps like the code's `fetch_add` and like `+` in a release build. The
lemmas below move comparisons, sums and maxima of `UInt64` to `Nat`, where `omega` decides
them. Each byte encoding is inverted by its decoding, in both directions, at its width.

The concurrent models keep their threads in a list updated in place; the last section says
what `set` does to the image and the counts of such a list.
-/

namespace RustCore

/-- `u64::MAX`, the sentinel of an empty minimum. -/
def u64Max : UInt64 := 18446744073709551615

@[simp] theorem toNat_u64Max : u64Max.toNat = 2 ^ 64 - 1 := rfl

namespace U64

@[simp] theorem lt_iff {a b : UInt64} : a < b ↔ a.toNat < b.toNat := Iff.rfl

@[simp] theorem le_iff {a b : UInt64} : a ≤ b ↔ a.toNat ≤ b.toNat := Iff.rfl

theorem eq_iff {a b : UInt64} : a = b ↔ a.toNat = b.toNat := ⟨congrArg _, UInt64.toNat.inj⟩

theorem ne_iff {a b : UInt64} : a ≠ b ↔ a.toNat ≠ b.toNat := not_congr eq_iff

theorem toNat_ofNat (n : Nat) : (UInt64.ofNat n).toNat = n % 2 ^ 64 := BitVec.toNat_ofNat _ _

/-- The modulus of the library's `UInt64.toNat_add`, as `omega` reads it. -/
theorem size_eq : UInt64.size = 2 ^ 64 := rfl

@[simp] theorem toNat_one : (1 : UInt64).toNat = 1 := rfl

/-- `x + 1` does not wrap below `u64::MAX`. -/
theorem toNat_add_one {a : UInt64} (h : a ≠ u64Max) : (a + 1).toNat = a.toNat + 1 := by
  have : a.toNat < 2 ^ 64 := UInt64.toNat_lt a
  rw [UInt64.toNat_add, size_eq, toNat_one, Nat.mod_eq_of_lt]
  rw [ne_iff, toNat_u64Max] at h
  omega

@[simp] theorem toNat_max (a b : UInt64) : (max a b).toNat = max a.toNat b.toNat := by
  show (if a ≤ b then b else a).toNat = _
  split <;> rename_i h <;> simp only [le_iff] at h <;> omega

@[simp] theorem toNat_min (a b : UInt64) : (min a b).toNat = min a.toNat b.toNat := by
  show (if a ≤ b then a else b).toNat = _
  split <;> rename_i h <;> simp only [le_iff] at h <;> omega

instance instAntisymmLE : Std.Antisymm (fun a b : UInt64 => a ≤ b) :=
  ⟨fun h₁ h₂ => eq_iff.mpr (Nat.le_antisymm (le_iff.mp h₁) (le_iff.mp h₂))⟩

/-- A wrapped sum, then `n` more, modulo `2^64`. -/
theorem toNat_add_mod (a b : UInt64) (n : Nat) :
    ((a + b).toNat + n) % 2 ^ 64 = (a.toNat + (b.toNat + n)) % 2 ^ 64 := by
  rw [UInt64.toNat_add, size_eq, Nat.mod_add_mod, Nat.add_assoc]

/-- The least element of a list of words, as `Iterator::min` finds it. -/
theorem min?_eq_some_iff {xs : List UInt64} {a : UInt64} :
    xs.min? = some a ↔ a ∈ xs ∧ ∀ b ∈ xs, a ≤ b :=
  List.min?_eq_some_iff (fun _ => le_iff.mpr (Nat.le_refl _))
    (fun a b => by simp only [eq_iff, toNat_min]; omega)
    (fun a b c => by simp only [le_iff, toNat_min]; omega)

/-- The greatest element of a list of words, as `Iterator::max` finds it. -/
theorem max?_eq_some_iff {xs : List UInt64} {a : UInt64} :
    xs.max? = some a ↔ a ∈ xs ∧ ∀ b ∈ xs, b ≤ a :=
  List.max?_eq_some_iff (fun _ => le_iff.mpr (Nat.le_refl _))
    (fun a b => by simp only [eq_iff, toNat_max]; omega)
    (fun a b c => by simp only [le_iff, toNat_max]; omega)

theorem min?_perm {xs ys : List UInt64} (h : xs.Perm ys) : xs.min? = ys.min? :=
  Option.ext fun _ => by simp only [Option.mem_def, min?_eq_some_iff, h.mem_iff]

theorem max?_perm {xs ys : List UInt64} (h : xs.Perm ys) : xs.max? = ys.max? :=
  Option.ext fun _ => by simp only [Option.mem_def, max?_eq_some_iff, h.mem_iff]

theorem compare_eq (a b : UInt64) : compare a b = compare a.toNat b.toNat := by
  simp only [compare, compareOfLessAndEq, lt_iff, eq_iff]

end U64

/-! ## Big-endian `u32` -/

/-- `u32::from_be_bytes`, read as a `usize`. -/
def u32FromBeBytes (bytes : List UInt8) : Nat := bytes.foldl (fun acc b => acc * 256 + b.toNat) 0

/-- `(n as u32).to_be_bytes()`. -/
def u32ToBeBytes (n : Nat) : List UInt8 :=
  [UInt8.ofNat (n / 2 ^ 24), UInt8.ofNat (n / 2 ^ 16), UInt8.ofNat (n / 2 ^ 8), UInt8.ofNat n]

@[simp] theorem length_u32ToBeBytes (n : Nat) : (u32ToBeBytes n).length = 4 := rfl

theorem toNat_ofNat_byte (x : Nat) : (UInt8.ofNat x).toNat = x % 256 := BitVec.toNat_ofNat _ _

theorem u32FromBeBytes_toBeBytes {n : Nat} (h : n < 2 ^ 32) : u32FromBeBytes (u32ToBeBytes n) = n := by
  simp only [u32FromBeBytes, u32ToBeBytes, List.foldl, toNat_ofNat_byte]
  omega

theorem u32ToBeBytes_fromBeBytes {bytes : List UInt8} (h : bytes.length = 4) :
    u32ToBeBytes (u32FromBeBytes bytes) = bytes := by
  match bytes, h with
  | [b₀, b₁, b₂, b₃], _ =>
    have : b₀.toNat < 256 := b₀.toNat_lt_size
    have : b₁.toNat < 256 := b₁.toNat_lt_size
    have : b₂.toNat < 256 := b₂.toNat_lt_size
    have : b₃.toNat < 256 := b₃.toNat_lt_size
    simp only [u32FromBeBytes, u32ToBeBytes, List.foldl, List.cons.injEq, and_true]
    refine ⟨?_, ?_, ?_, ?_⟩ <;> refine UInt8.toNat.inj ?_ <;> rw [toNat_ofNat_byte] <;> omega

/-! ## Little-endian `u64` -/

/-- The `w` low bytes of `n`, least significant first. -/
def toLeBytes : Nat → Nat → List UInt8
  | 0, _ => []
  | w + 1, n => UInt8.ofNat n :: toLeBytes w (n / 256)

/-- The number whose little-endian bytes are `bytes`. -/
def fromLeBytes : List UInt8 → Nat
  | [] => 0
  | b :: bytes => b.toNat + 256 * fromLeBytes bytes

@[simp] theorem length_toLeBytes (w n : Nat) : (toLeBytes w n).length = w := by
  induction w generalizing n with
  | zero => rfl
  | succ w ih => simp only [toLeBytes, List.length_cons, ih]

theorem fromLeBytes_toLeBytes (w n : Nat) : fromLeBytes (toLeBytes w n) = n % 256 ^ w := by
  induction w generalizing n with
  | zero => simp only [toLeBytes, fromLeBytes, Nat.pow_zero, Nat.mod_one]
  | succ w ih =>
    rw [toLeBytes, fromLeBytes, ih, toNat_ofNat_byte, Nat.pow_succ', Nat.mod_mul]

theorem fromLeBytes_lt (bytes : List UInt8) : fromLeBytes bytes < 256 ^ bytes.length := by
  induction bytes with
  | nil => exact Nat.one_pos
  | cons b bytes ih =>
    have hb : b.toNat < 256 := b.toNat_lt_size
    rw [fromLeBytes, List.length_cons, Nat.pow_succ']
    omega

theorem toLeBytes_fromLeBytes (bytes : List UInt8) :
    toLeBytes bytes.length (fromLeBytes bytes) = bytes := by
  induction bytes with
  | nil => rfl
  | cons b bytes ih =>
    have hb : b.toNat < 256 := b.toNat_lt_size
    have hdiv : (b.toNat + 256 * fromLeBytes bytes) / 256 = fromLeBytes bytes := by omega
    rw [List.length_cons, toLeBytes, fromLeBytes, hdiv, ih]
    exact congrArg (· :: bytes) (UInt8.toNat.inj (by rw [toNat_ofNat_byte]; omega))

/-- `u64::to_le_bytes`. -/
def u64ToLeBytes (x : UInt64) : List UInt8 := toLeBytes 8 x.toNat

/-- `u64::from_le_bytes` of eight bytes. -/
def u64FromLeBytes (bytes : List UInt8) : UInt64 := UInt64.ofNat (fromLeBytes bytes)

@[simp] theorem length_u64ToLeBytes (x : UInt64) : (u64ToLeBytes x).length = 8 :=
  length_toLeBytes 8 _

theorem u64FromLeBytes_toLeBytes (x : UInt64) : u64FromLeBytes (u64ToLeBytes x) = x := by
  have hx : x.toNat < 2 ^ 64 := UInt64.toNat_lt x
  refine U64.eq_iff.mpr ?_
  rw [u64FromLeBytes, u64ToLeBytes, fromLeBytes_toLeBytes, U64.toNat_ofNat]
  omega

theorem u64ToLeBytes_fromLeBytes {bytes : List UInt8} (h : bytes.length = 8) :
    u64ToLeBytes (u64FromLeBytes bytes) = bytes := by
  have hlt := fromLeBytes_lt bytes
  rw [h] at hlt
  rw [u64ToLeBytes, u64FromLeBytes, U64.toNat_ofNat, Nat.mod_eq_of_lt (by omega), ← h,
    toLeBytes_fromLeBytes]

/-! ## Lists updated in place -/

/-- Setting an element to one with the same image leaves the image of the list as it is. -/
theorem map_set_of_getElem? {α β : Type} {f : α → β} {l : List α} {i : Nat} {a b : α}
    (hi : l[i]? = some a) (h : f b = f a) : (l.set i b).map f = l.map f := by
  refine List.ext_getElem? fun j => ?_
  simp only [List.getElem?_map, List.getElem?_set]
  split_ifs with hj hlt
  · subst hj; simp [hi, h]
  · simp_all [List.getElem?_eq_none]
  · rfl

section SetCount

variable {α : Type} {l : List α} {i : Nat} {a b : α}

theorem set_eq_self_of_getElem? (hi : l[i]? = some a) : l.set i a = l := by
  refine List.ext_getElem? fun j => ?_
  rw [List.getElem?_set]
  split_ifs with hij hlt
  · rw [← hij, hi]
  · exact absurd (List.getElem?_eq_some_iff.mp hi).1 hlt
  · rfl

/-- A count along a list changes, when element `i` is replaced, by what the replacement adds
and what it takes away. -/
theorem countP_set_add (hi : l[i]? = some a) (p : α → Bool) :
    (l.set i b).countP p + (if p a then 1 else 0) = l.countP p + (if p b then 1 else 0) := by
  obtain ⟨hil, rfl⟩ := List.getElem?_eq_some_iff.mp hi
  have hr := List.boole_getElem_le_countP p l i hil
  rw [List.countP_set _ _ _ _ hil]
  split_ifs at hr ⊢ <;> omega

/-- A sum along a list changes, when element `i` is replaced, by what the replacement adds and
what it takes away. -/
theorem sum_map_set_add (f : α → Nat) :
    ∀ {l : List α} {i : Nat}, l[i]? = some a →
      ((l.set i b).map f).sum + f a = (l.map f).sum + f b
  | _ :: _, 0, hi => by
    cases Option.some.inj (List.getElem?_cons_zero.symm.trans hi)
    simp only [List.set_cons_zero, List.map_cons, List.sum_cons]
    omega
  | x :: l, i + 1, hi => by
    have := sum_map_set_add f (l := l) (i := i) (List.getElem?_cons_succ.symm.trans hi)
    simp only [List.set_cons_succ, List.map_cons, List.sum_cons]
    omega

/-- Two places of a list where `p` holds count twice. -/
theorem two_le_countP {j : Nat} (hij : i ≠ j) (hi : l[i]? = some a) (hj : l[j]? = some b)
    {p : α → Bool} (ha : p a = true) (hb : p b = true) (c : α) (hc : p c = false) :
    2 ≤ l.countP p := by
  have hset := countP_set_add (b := c) hi p
  have hpos : 0 < (l.set i c).countP p :=
    List.countP_pos_iff.mpr ⟨b, List.getElem?_mem (by rw [List.getElem?_set_ne hij, hj]), hb⟩
  simp only [ha, hc, if_true, Bool.false_eq_true, if_false] at hset
  omega

end SetCount

end RustCore
