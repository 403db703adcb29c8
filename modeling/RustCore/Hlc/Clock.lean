import RustCore.Word

/-!
# The hybrid logical clock, one call at a time

`HybridLogicalClock` keeps two atomics, `last_physical` and `logical_counter`. Made one call
at a time, `now` and `update` are functions of the two values and of the reading of the system
clock, which the model takes as an argument: readings may go backwards or stand still.

1. Timestamps compare lexicographically (`HLCTimestamp.compare`); `key` places them in `Nat` in
   the same order (`compare_eq_key`). The C entry point `hlc_timestamp_compare` is therefore the
   three-way comparison of a total order, and `is_less_than` and `is_greater_than` agree with
   it (`hlcTimestampCompare_total_order`).
2. A timestamp travels as 16 little-endian bytes; `to_bytes` and `from_bytes` are inverse
   bijections, and the C entry points decode what they encode (`toBytes_bijective`).
3. After every call the clock holds the timestamp it returned (`call_stamp`).
4. The physical part of a returned timestamp is the largest physical time the clock has seen
   (`call_physical_eq_seenMax`).
5. A returned timestamp is above the clock's previous one, and an `update` is above the remote
   timestamp, as long as no logical counter is at `u64::MAX` (`call_key_gt`,
   `update_key_gt_remote`), so the calls of a clock return strictly increasing timestamps
   (`stamps_pairwise_gt`). At `u64::MAX` the `+ 1` wraps and the order breaks (`stamps_wrap`,
   `update_wrap_remote`).
-/

namespace RustCore.Hlc

open U64

/-- `HLCTimestamp`: physical time in nanoseconds, then a logical counter. -/
structure HLCTimestamp where
  physical : UInt64
  logical : UInt64
  deriving DecidableEq, Repr

namespace HLCTimestamp

/-- `HLCTimestamp::compare`: physical time first, the logical counter on a tie. -/
def compare (a b : HLCTimestamp) : Ordering :=
  match Ord.compare a.physical b.physical with
  | .eq => Ord.compare a.logical b.logical
  | o => o

/-- `HLCTimestamp::is_greater_than`. -/
def isGreaterThan (a b : HLCTimestamp) : Bool := a.compare b == .gt

/-- The place of a timestamp in the order of `compare`. -/
def key (t : HLCTimestamp) : Nat := t.physical.toNat * 2 ^ 64 + t.logical.toNat

theorem compare_eq_key (a b : HLCTimestamp) : a.compare b = Ord.compare a.key b.key := by
  have : a.logical.toNat < 2 ^ 64 := UInt64.toNat_lt _
  have : b.logical.toNat < 2 ^ 64 := UInt64.toNat_lt _
  rw [compare, U64.compare_eq, U64.compare_eq]
  simp only [key]
  rcases Nat.lt_trichotomy a.physical.toNat b.physical.toNat with h | h | h
  · have hk : a.physical.toNat * 2 ^ 64 + a.logical.toNat <
        b.physical.toNat * 2 ^ 64 + b.logical.toNat := by omega
    rw [Nat.compare_eq_lt.mpr h, Nat.compare_eq_lt.mpr hk]
  · rw [Nat.compare_eq_eq.mpr h, h]
    simp only [Ord.compare, compareOfLessAndEq]
    split_ifs <;> first | rfl | omega
  · have hk : b.physical.toNat * 2 ^ 64 + b.logical.toNat <
        a.physical.toNat * 2 ^ 64 + a.logical.toNat := by omega
    rw [Nat.compare_eq_gt.mpr h, Nat.compare_eq_gt.mpr hk]

theorem compare_eq_lt_iff {a b : HLCTimestamp} : a.compare b = .lt ↔ a.key < b.key := by
  rw [compare_eq_key, Nat.compare_eq_lt]

theorem compare_eq_gt_iff {a b : HLCTimestamp} : a.compare b = .gt ↔ b.key < a.key := by
  rw [compare_eq_key, Nat.compare_eq_gt]

theorem key_injective : Function.Injective key := by
  intro ⟨pa, la⟩ ⟨pb, lb⟩ h
  have : la.toNat < 2 ^ 64 := UInt64.toNat_lt _
  have : lb.toNat < 2 ^ 64 := UInt64.toNat_lt _
  simp only [key] at h
  simp only [mk.injEq, eq_iff]
  omega

/-- `HLCTimestamp::is_less_than`. -/
def isLessThan (a b : HLCTimestamp) : Bool := a.compare b == .lt

theorem isLessThan_iff {a b : HLCTimestamp} : a.isLessThan b ↔ a.key < b.key := by
  rw [isLessThan, ← compare_eq_lt_iff]
  cases a.compare b <;> decide

theorem isGreaterThan_iff {a b : HLCTimestamp} : a.isGreaterThan b ↔ b.key < a.key := by
  rw [isGreaterThan, ← compare_eq_gt_iff]
  cases a.compare b <;> decide

end HLCTimestamp

/-- `hlc_timestamp_compare`: `compare` as `-1`, `0` or `1`. -/
def hlcTimestampCompare (ts1 ts2 : HLCTimestamp) : Int8 :=
  match ts1.compare ts2 with
  | .lt => -1
  | .eq => 0
  | .gt => 1

namespace HLCTimestamp

theorem hlcTimestampCompare_eq (a b : HLCTimestamp) :
    hlcTimestampCompare a b = if a.key < b.key then -1 else if a.key = b.key then 0 else 1 := by
  rw [hlcTimestampCompare, compare_eq_key]
  rcases Nat.lt_trichotomy a.key b.key with h | h | h
  · rw [Nat.compare_eq_lt.mpr h, if_pos h]
  · rw [Nat.compare_eq_eq.mpr h, if_neg (by omega), if_pos h]
  · rw [Nat.compare_eq_gt.mpr h, if_neg (by omega), if_neg (by omega)]

theorem hlcTimestampCompare_eq_neg_one_iff {a b : HLCTimestamp} :
    hlcTimestampCompare a b = -1 ↔ a.key < b.key := by
  rw [hlcTimestampCompare_eq]
  split_ifs with h₁ h₂
  · exact iff_of_true rfl h₁
  · exact iff_of_false (by decide) h₁
  · exact iff_of_false (by decide) h₁

theorem hlcTimestampCompare_eq_zero_iff {a b : HLCTimestamp} :
    hlcTimestampCompare a b = 0 ↔ a = b := by
  rw [hlcTimestampCompare_eq, ← key_injective.eq_iff]
  split_ifs with h₁ h₂
  · exact iff_of_false (by decide) (by omega)
  · exact iff_of_true rfl h₂
  · exact iff_of_false (by decide) h₂

theorem hlcTimestampCompare_swap (a b : HLCTimestamp) :
    hlcTimestampCompare b a = -hlcTimestampCompare a b := by
  rw [hlcTimestampCompare_eq, hlcTimestampCompare_eq]
  rcases Nat.lt_trichotomy a.key b.key with h | h | h
  · rw [if_neg (by omega), if_neg (by omega), if_pos h]; decide
  · rw [if_neg (by omega), if_pos h.symm, if_neg (by omega), if_pos h]; decide
  · rw [if_pos h, if_neg (by omega), if_neg (by omega)]

/-- The C entry point compares as a total order should: swapping its arguments negates it, it
is `0` exactly on equal timestamps, `-1` is transitive, and `is_less_than` and
`is_greater_than` hold exactly where it says `-1`. -/
theorem hlcTimestampCompare_total_order (a b c : HLCTimestamp) :
    hlcTimestampCompare b a = -hlcTimestampCompare a b ∧
      (hlcTimestampCompare a b = 0 ↔ a = b) ∧
      (hlcTimestampCompare a b = -1 → hlcTimestampCompare b c = -1 →
        hlcTimestampCompare a c = -1) ∧
      (a.isLessThan b ↔ hlcTimestampCompare a b = -1) ∧
      (b.isGreaterThan a ↔ hlcTimestampCompare a b = -1) := by
  simp only [hlcTimestampCompare_eq_neg_one_iff, isLessThan_iff, isGreaterThan_iff, iff_self,
    and_true]
  exact ⟨hlcTimestampCompare_swap a b, hlcTimestampCompare_eq_zero_iff, Nat.lt_trans⟩

end HLCTimestamp

/-! ## Serialization -/

/-- A `[u8; 16]`. -/
@[ext] structure Bytes16 where
  toList : List UInt8
  length_toList : toList.length = 16
  deriving DecidableEq

namespace HLCTimestamp

/-- `HLCTimestamp::to_bytes`: `physical` into bytes `0..8` and `logical` into bytes `8..16`,
each with `to_le_bytes`. -/
def toBytes (self : HLCTimestamp) : Bytes16 :=
  ⟨u64ToLeBytes self.physical ++ u64ToLeBytes self.logical, by
    rw [List.length_append, length_u64ToLeBytes, length_u64ToLeBytes]⟩

/-- `HLCTimestamp::from_bytes`: `from_le_bytes` of bytes `0..8`, then of bytes `8..16`. -/
def fromBytes (bytes : Bytes16) : HLCTimestamp :=
  ⟨u64FromLeBytes (bytes.toList.take 8), u64FromLeBytes (bytes.toList.drop 8)⟩

theorem fromBytes_toBytes (ts : HLCTimestamp) : fromBytes ts.toBytes = ts := by
  rw [fromBytes, toBytes]
  dsimp only
  rw [List.take_left' (length_u64ToLeBytes _), List.drop_left' (length_u64ToLeBytes _),
    u64FromLeBytes_toLeBytes, u64FromLeBytes_toLeBytes]

theorem toBytes_fromBytes (bytes : Bytes16) : (fromBytes bytes).toBytes = bytes := by
  have h := bytes.length_toList
  ext1
  rw [toBytes, fromBytes]
  dsimp only
  rw [u64ToLeBytes_fromLeBytes (by rw [List.length_take, h]; rfl),
    u64ToLeBytes_fromLeBytes (by rw [List.length_drop, h]), List.take_append_drop]

end HLCTimestamp

/-- `hlc_timestamp_to_bytes`: copies `to_bytes` over the first 16 bytes at `output`. The caller
passes 16 writable bytes; a shorter buffer is undefined behaviour, `none` here. -/
def hlcTimestampToBytes (ts : HLCTimestamp) (output : List UInt8) : Option (List UInt8) :=
  if 16 ≤ output.length then some (ts.toBytes.toList ++ output.drop 16) else none

/-- `hlc_timestamp_from_bytes`: copies the first 16 bytes at `bytes` into an array and decodes
it with `from_bytes`. Fewer than 16 readable bytes is undefined behaviour, `none` here. -/
def hlcTimestampFromBytes (bytes : List UInt8) : Option HLCTimestamp :=
  if h : 16 ≤ bytes.length then
    some (.fromBytes ⟨bytes.take 16, by rw [List.length_take]; omega⟩)
  else none

theorem hlcTimestampFromBytes_eq {bytes : List UInt8} {b : Bytes16}
    (h : bytes.take 16 = b.toList) : hlcTimestampFromBytes bytes = some (.fromBytes b) := by
  have hlen := congrArg List.length h
  rw [b.length_toList, List.length_take] at hlen
  rw [hlcTimestampFromBytes, dif_pos (by omega)]
  exact congrArg (some ∘ HLCTimestamp.fromBytes) (Bytes16.ext h)

theorem hlcTimestampFromBytes_toBytes (ts : HLCTimestamp) {output : List UInt8}
    (h : 16 ≤ output.length) :
    (hlcTimestampToBytes ts output).bind hlcTimestampFromBytes = some ts := by
  rw [hlcTimestampToBytes, if_pos h, Option.some_bind,
    hlcTimestampFromBytes_eq (List.take_left' ts.toBytes.length_toList),
    HLCTimestamp.fromBytes_toBytes]

/-- The 16-byte little-endian encoding is a bijection between timestamps and byte arrays, and
the C entry points decode what they encode. -/
theorem toBytes_bijective :
    (∀ ts : HLCTimestamp, HLCTimestamp.fromBytes ts.toBytes = ts) ∧
      (∀ bytes : Bytes16, (HLCTimestamp.fromBytes bytes).toBytes = bytes) ∧
      ∀ (ts : HLCTimestamp) (output : List UInt8), 16 ≤ output.length →
        (hlcTimestampToBytes ts output).bind hlcTimestampFromBytes = some ts :=
  ⟨HLCTimestamp.fromBytes_toBytes, HLCTimestamp.toBytes_fromBytes,
    fun ts _ h => hlcTimestampFromBytes_toBytes ts h⟩

/-- The timestamp of the serialization test, through a zeroed 16-byte buffer. -/
theorem toBytes_bijective_buffer :
    16 ≤ (List.replicate 16 (0 : UInt8)).length ∧
      (hlcTimestampToBytes ⟨1234567890, 42⟩ (List.replicate 16 0)).bind hlcTimestampFromBytes =
        some ⟨1234567890, 42⟩ :=
  ⟨by decide, toBytes_bijective.2.2 _ _ (by decide)⟩

/-- The two atomics of `HybridLogicalClock`. -/
structure HybridLogicalClock where
  logicalCounter : UInt64
  lastPhysical : UInt64
  deriving DecidableEq, Repr

namespace HybridLogicalClock

/-- `HybridLogicalClock::new`. -/
def new : HybridLogicalClock := ⟨0, 0⟩

/-- The clock's two values read as a timestamp. -/
def stamp (c : HybridLogicalClock) : HLCTimestamp := ⟨c.lastPhysical, c.logicalCounter⟩

/-- `HybridLogicalClock::now`, `physicalNow` being the reading of `get_physical_time`. In the
second branch `fetch_add(1)` stores the wrapped successor and `+ 1` computes it once more. -/
def now (self : HybridLogicalClock) (physicalNow : UInt64) :
    HLCTimestamp × HybridLogicalClock :=
  let lastPhysical := self.lastPhysical
  if physicalNow > lastPhysical then
    (⟨physicalNow, 0⟩, { lastPhysical := physicalNow, logicalCounter := 0 })
  else
    let logical := self.logicalCounter + 1
    (⟨lastPhysical, logical⟩, { self with logicalCounter := logical })

/-- `HybridLogicalClock::update`. Both branches on an unchanged `last_physical` store the logical
value they return: the first with `store`, the second with `fetch_add`. -/
def update (self : HybridLogicalClock) (remoteTs : HLCTimestamp) (physicalNow : UInt64) :
    HLCTimestamp × HybridLogicalClock :=
  let maxPhysical := max physicalNow remoteTs.physical
  let lastPhysical := self.lastPhysical
  if maxPhysical > lastPhysical then
    let logical := if maxPhysical = remoteTs.physical then remoteTs.logical + 1 else 0
    (⟨maxPhysical, logical⟩, { lastPhysical := maxPhysical, logicalCounter := logical })
  else
    let logical :=
      if lastPhysical = remoteTs.physical then max self.logicalCounter remoteTs.logical + 1
      else self.logicalCounter + 1
    (⟨lastPhysical, logical⟩, { self with logicalCounter := logical })

/-- One call on a clock, with the physical reading it takes. -/
inductive Call
  | now (physicalNow : UInt64)
  | update (remoteTs : HLCTimestamp) (physicalNow : UInt64)
  deriving DecidableEq, Repr

/-- The timestamp a call returns and the clock after it. -/
def call (c : HybridLogicalClock) : Call → HLCTimestamp × HybridLogicalClock
  | .now p => c.now p
  | .update r p => c.update r p

/-- The clock after a sequence of calls. -/
def exec (c : HybridLogicalClock) : List Call → HybridLogicalClock
  | [] => c
  | k :: ks => (c.call k).2.exec ks

/-- The timestamps a sequence of calls returns, in order. -/
def stamps (c : HybridLogicalClock) : List Call → List HLCTimestamp
  | [] => []
  | k :: ks => (c.call k).1 :: (c.call k).2.stamps ks

/-! ## The state is the last timestamp -/

theorem call_stamp (c : HybridLogicalClock) (k : Call) : (c.call k).2.stamp = (c.call k).1 := by
  cases k <;> simp only [call, now, update] <;> split_ifs <;> rfl

/-! ## The physical component -/

/-- The physical times a call shows the clock: its reading, and the remote physical time. -/
def Call.physicals : Call → List UInt64
  | .now p => [p]
  | .update r p => [p, r.physical]

/-- The largest of `0`, every reading and every remote physical time of a sequence of calls. -/
def seenMax (ks : List Call) : UInt64 := (ks.flatMap Call.physicals).foldl max 0

theorem call_physical (c : HybridLogicalClock) (k : Call) :
    (c.call k).1.physical = k.physicals.foldl max c.lastPhysical := by
  apply eq_iff.mpr
  cases k <;> simp only [call, now, update, Call.physicals, List.foldl] <;> split_ifs with h <;>
    simp only [gt_iff_lt, lt_iff, not_lt, le_iff, toNat_max] at h ⊢ <;> omega

theorem exec_lastPhysical (c : HybridLogicalClock) (ks : List Call) :
    (c.exec ks).lastPhysical = (ks.flatMap Call.physicals).foldl max c.lastPhysical := by
  induction ks generalizing c with
  | nil => rfl
  | cons k ks ih =>
    have h : (c.call k).2.lastPhysical = (c.call k).1.physical := by rw [← call_stamp]; rfl
    rw [exec, ih, h, call_physical, List.flatMap_cons, List.foldl_append]

theorem call_physical_eq_seenMax (ks : List Call) (k : Call) :
    ((new.exec ks).call k).1.physical = seenMax (ks ++ [k]) := by
  rw [call_physical, exec_lastPhysical, seenMax, List.flatMap_append, List.foldl_append,
    List.flatMap_singleton]
  rfl

/-! ## Order of the returned timestamps -/

theorem call_key_gt (c : HybridLogicalClock) (k : Call) (hc : c.logicalCounter ≠ u64Max)
    (hr : ∀ r p, k = .update r p → r.logical ≠ u64Max) : c.stamp.key < (c.call k).1.key := by
  have : c.logicalCounter.toNat < 2 ^ 64 := UInt64.toNat_lt _
  cases k with
  | now p =>
    simp only [call, now, stamp, HLCTimestamp.key]
    split_ifs with h <;> dsimp only
    · simp only [gt_iff_lt, lt_iff] at h; omega
    · rw [toNat_add_one hc]; omega
  | update r p =>
    have hr := hr r p rfl
    simp only [call, update, stamp, HLCTimestamp.key]
    split_ifs with h h' <;> dsimp only <;> simp only [gt_iff_lt, lt_iff] at h
    · omega
    · omega
    · rw [toNat_add_one (by rw [ne_iff, toNat_max]; rw [ne_iff] at hc hr; omega), toNat_max]
      omega
    · rw [toNat_add_one hc]; omega

theorem update_key_gt_remote (c : HybridLogicalClock) (r : HLCTimestamp) (p : UInt64)
    (hc : c.logicalCounter ≠ u64Max) (hr : r.logical ≠ u64Max) :
    r.key < (c.update r p).1.key := by
  have : r.logical.toNat < 2 ^ 64 := UInt64.toNat_lt _
  simp only [update, HLCTimestamp.key]
  split_ifs with h h₁ h₂ <;> dsimp only <;> simp only [gt_iff_lt, lt_iff, toNat_max] at h
  · rw [toNat_add_one hr, eq_iff.mp h₁]; omega
  · simp only [eq_iff, toNat_max] at h₁ ⊢; omega
  · rw [toNat_add_one (by rw [ne_iff, toNat_max]; rw [ne_iff] at hc hr; omega), toNat_max,
      eq_iff.mp h₂]
    omega
  · simp only [eq_iff] at h₂; omega

/-- A remote logical counter of `u64::MAX`, as `from_bytes` decodes it off the wire, makes the
`+ 1` wrap: from a fresh clock at reading `0`, `update` returns logical `0`, below the remote
timestamp, both when the remote physical time is ahead of the clock and when it equals
`last_physical`. -/
theorem update_wrap_remote :
    HLCTimestamp.fromBytes
        ⟨[5, 0, 0, 0, 0, 0, 0, 0, 255, 255, 255, 255, 255, 255, 255, 255], rfl⟩ = ⟨5, u64Max⟩ ∧
      (new.update ⟨5, u64Max⟩ 0).1 = ⟨5, 0⟩ ∧
      ((new.update ⟨5, 0⟩ 0).2.update ⟨5, u64Max⟩ 0).1 = ⟨5, 0⟩ ∧
      (⟨5, 0⟩ : HLCTimestamp).compare ⟨5, u64Max⟩ = .lt := by
  decide

/-- Below `u64::MAX` every call returns a timestamp above all earlier ones of the same clock. -/
theorem stamps_pairwise_gt (c : HybridLogicalClock) (ks : List Call)
    (hc : c.logicalCounter ≠ u64Max) (hs : ∀ t ∈ c.stamps ks, t.logical ≠ u64Max)
    (hr : ∀ r p, Call.update r p ∈ ks → r.logical ≠ u64Max) :
    (∀ t ∈ c.stamps ks, c.stamp.key < t.key) ∧
      (c.stamps ks).Pairwise (fun a b => b.compare a = .gt) := by
  induction ks generalizing c with
  | nil => simp [stamps]
  | cons k ks ih =>
    have hk := call_key_gt c k hc fun r p e => hr r p (e ▸ List.mem_cons_self _ _)
    have hts : (c.call k).1.logical ≠ u64Max := hs _ (List.mem_cons_self _ _)
    obtain ⟨hgt, hpw⟩ := ih (c.call k).2 (by rw [← call_stamp] at hts; exact hts)
      (fun t ht => hs t (List.mem_cons_of_mem _ ht))
      (fun r p h => hr r p (List.mem_cons_of_mem _ h))
    rw [call_stamp] at hgt
    refine ⟨?_, List.pairwise_cons.mpr ⟨fun t ht => HLCTimestamp.compare_eq_gt_iff.mpr (hgt t ht), hpw⟩⟩
    simp only [stamps, List.mem_cons, forall_eq_or_imp]
    exact ⟨hk, fun t ht => Nat.lt_trans hk (hgt t ht)⟩

/-- Four calls from a fresh clock, one of them an `update` from a clock ahead: each timestamp is
above the ones before it. -/
theorem stamps_pairwise_gt_mixed :
    let ks : List Call := [.now 3, .update ⟨5, 2⟩ 4, .now 4, .now 9]
    new.logicalCounter ≠ u64Max ∧ (∀ t ∈ new.stamps ks, t.logical ≠ u64Max) ∧
      (∀ r p, Call.update r p ∈ ks → r.logical ≠ u64Max) ∧
      new.stamps ks = [⟨3, 0⟩, ⟨5, 3⟩, ⟨5, 4⟩, ⟨9, 0⟩] ∧
      (∀ t ∈ new.stamps ks, new.stamp.key < t.key) ∧
      (new.stamps ks).Pairwise (fun a b => b.compare a = .gt) := by
  intro ks
  have hc : new.logicalCounter ≠ u64Max := by decide
  have hs : ∀ t ∈ new.stamps ks, t.logical ≠ u64Max := by decide
  have hr : ∀ r p, Call.update r p ∈ ks → r.logical ≠ u64Max := by
    intro r p h
    simp only [ks, List.mem_cons, reduceCtorEq, Call.update.injEq, List.mem_nil_iff, or_false,
      false_or] at h
    rw [h.1]
    decide
  exact ⟨hc, hs, hr, by decide, stamps_pairwise_gt new ks hc hs hr⟩

/-- With a remote logical counter of `u64::MAX - 1` the counter reaches `u64::MAX`; the next
`now` at an unchanged reading wraps it to `0`, below the timestamp before. -/
theorem stamps_wrap :
    new.stamps [.update ⟨5, u64Max - 1⟩ 0, .now 0, .now 0] = [⟨5, u64Max⟩, ⟨5, 0⟩, ⟨5, 1⟩] ∧
      (⟨5, 0⟩ : HLCTimestamp).compare ⟨5, u64Max⟩ = .lt := by
  decide

end HybridLogicalClock

end RustCore.Hlc
