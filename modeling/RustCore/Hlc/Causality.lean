import RustCore.Hlc.Clock

/-!
# Causality across clocks

Any number of clocks, each used one call at a time, all starting from `new`, and timestamps
passed between them. A run is a list of events; an `update` names the earlier event whose
timestamp it receives, so one timestamp can be delivered any number of times, in any order.

`HappensBefore` is Lamport's relation: program order on one clock and receipt, closed under
transitivity. `happensBefore_compare_lt`: when no logical counter reaches `u64::MAX`, an event
that happens before another has the smaller timestamp.

1. `Inv` holds of every run (`inv_run`): each clock is new or holds a timestamp of the log, and
   holds at least every timestamp it returned.
2. The timestamp of the event at position `j` is the call of its clock in the state of the run
   before it (`log_getElem?_run`).
3. Program order then follows from `call_key_gt`, receipt from `update_key_gt_remote`.
-/

namespace RustCore.Hlc

open HybridLogicalClock

/-- A call on one clock of a run. An `update` receives the timestamp of the event at position
`source`. -/
inductive Event
  | now (clock : Nat) (physicalNow : UInt64)
  | update (clock : Nat) (source : Nat) (physicalNow : UInt64)
  deriving DecidableEq, Repr

namespace Event

/-- The clock an event calls. -/
def clock : Event → Nat
  | now c _ => c
  | update c _ _ => c

/-- The call an event makes, given the timestamps returned before it. -/
def toCall (log : List HLCTimestamp) : Event → Call
  | now _ p => .now p
  | update _ s p => .update (log.getD s ⟨0, 0⟩) p

end Event

/-- The clocks of a run, and the timestamps returned so far in the order of the events. -/
structure Network where
  clocks : Nat → HybridLogicalClock
  log : List HLCTimestamp

namespace Network

/-- Every clock fresh from `new`, nothing returned. -/
def init : Network := ⟨fun _ => HybridLogicalClock.new, []⟩

/-- One event: its clock makes the call and the timestamp joins the log. -/
def step (s : Network) (e : Event) : Network :=
  let r := (s.clocks e.clock).call (e.toCall s.log)
  ⟨Function.update s.clocks e.clock r.2, s.log ++ [r.1]⟩

/-- The network after a run. -/
def run (es : List Event) : Network := es.foldl step init

/-- Every `update` receives a timestamp returned before it. -/
def Received (es : List Event) : Prop :=
  ∀ j c s (p : UInt64), es[j]? = some (Event.update c s p) → s < j

/-- Lamport's happens-before on the positions of a run. -/
inductive HappensBefore (es : List Event) : Nat → Nat → Prop
  | program {i j : Nat} {e f : Event} : i < j → es[i]? = some e → es[j]? = some f →
      e.clock = f.clock → HappensBefore es i j
  | receive {i j c : Nat} {p : UInt64} : es[j]? = some (.update c i p) → HappensBefore es i j
  | trans {i j k : Nat} : HappensBefore es i j → HappensBefore es j k → HappensBefore es i k

/-! ## The log of a run -/

theorem foldl_log (es : List Event) (s : Network) :
    ∃ l, (es.foldl step s).log = s.log ++ l ∧ l.length = es.length := by
  induction es generalizing s with
  | nil => exact ⟨[], by simp⟩
  | cons e es ih =>
    obtain ⟨l, hl, hlen⟩ := ih (s.step e)
    refine ⟨((s.clocks e.clock).call (e.toCall s.log)).1 :: l, ?_, by simp [hlen]⟩
    rw [List.foldl_cons, hl]
    simp [step]

theorem run_append_single (es : List Event) (e : Event) : run (es ++ [e]) = (run es).step e :=
  List.foldl_append _ _ _ _

theorem log_length (es : List Event) : (run es).log.length = es.length := by
  obtain ⟨l, hl, hlen⟩ := foldl_log es init
  rw [run, hl, List.length_append, hlen]
  exact Nat.zero_add _

/-- A later event does not change the log of the events before it. -/
theorem log_getElem?_append {es : List Event} (es' : List Event) {i : Nat} (hi : i < es.length) :
    (run (es ++ es')).log[i]? = (run es).log[i]? := by
  obtain ⟨l, hl, -⟩ := foldl_log es' (run es)
  rw [run, List.foldl_append, ← run, hl, List.getElem?_append_left (by rw [log_length]; exact hi)]

theorem log_getElem?_split (pre suf : List Event) (e : Event) :
    (run (pre ++ e :: suf)).log[pre.length]? =
      some (((run pre).clocks e.clock).call (e.toCall (run pre).log)).1 := by
  rw [← List.singleton_append, ← List.append_assoc, log_getElem?_append _ (by simp),
    run_append_single, step, List.getElem?_append_right (Nat.le_of_eq (log_length pre)), log_length,
    Nat.sub_self]
  rfl

/-- The timestamp of the event at position `j`. -/
theorem log_getElem?_run {es : List Event} {j : Nat} {e : Event} (he : es[j]? = some e) :
    (run es).log[j]? =
      some (((run (es.take j)).clocks e.clock).call (e.toCall (run (es.take j)).log)).1 := by
  obtain ⟨hj, rfl⟩ := List.getElem?_eq_some_iff.mp he
  have := log_getElem?_split (es.take j) (es.drop (j + 1)) es[j]
  rwa [List.length_take_of_le (Nat.le_of_lt hj), ← List.drop_eq_getElem_cons hj,
    List.take_append_drop] at this

/-! ## The invariant of a run -/

/-- Each clock is fresh or holds a timestamp of the log, and holds at least every timestamp it
returned. -/
structure Inv (es : List Event) (s : Network) : Prop where
  length : s.log.length = es.length
  clock_mem : ∀ c, s.clocks c = HybridLogicalClock.new ∨ (s.clocks c).stamp ∈ s.log
  stamp_le : ∀ (i : Nat) (e : Event) (t : HLCTimestamp), es[i]? = some e → s.log[i]? = some t →
    t.key ≤ (s.clocks e.clock).stamp.key

theorem inv_init : Inv [] init :=
  ⟨rfl, fun _ => .inl rfl, fun _ _ _ h => by simp at h⟩

/-- Below `u64::MAX`, the counter of a clock of an invariant state. -/
theorem Inv.counter_ne {es : List Event} {s : Network} (hs : Inv es s)
    (hov : ∀ t ∈ s.log, t.logical ≠ u64Max) (c : Nat) : (s.clocks c).logicalCounter ≠ u64Max := by
  rcases hs.clock_mem c with h | h
  · rw [h]; decide
  · exact hov _ h

/-- The call of an event returns a timestamp above the state of its clock. -/
theorem Inv.key_lt_call {es : List Event} {s : Network} {e : Event} (hs : Inv es s)
    (hov : ∀ t ∈ s.log, t.logical ≠ u64Max)
    (hsrc : ∀ c src p, e = .update c src p → src < es.length) :
    (s.clocks e.clock).stamp.key < ((s.clocks e.clock).call (e.toCall s.log)).1.key := by
  refine call_key_gt _ _ (hs.counter_ne hov _) fun r p h => ?_
  cases e with
  | now => cases h
  | update c src q =>
    obtain ⟨rfl, -⟩ := Call.update.inj h
    have hlt : src < s.log.length := hs.length ▸ hsrc c src q rfl
    apply hov
    rw [List.getD_eq_getElem?_getD, List.getElem?_eq_getElem hlt]
    exact List.getElem_mem _

theorem inv_step {es : List Event} {s : Network} {e : Event} (hs : Inv es s)
    (hov : ∀ t ∈ (s.step e).log, t.logical ≠ u64Max)
    (hsrc : ∀ c src p, e = .update c src p → src < es.length) : Inv (es ++ [e]) (s.step e) := by
  have hgt := hs.key_lt_call (fun t ht => hov t (List.mem_append_left _ ht)) hsrc
  refine ⟨by simp [step, hs.length], fun c => ?_, fun i f t hf ht => ?_⟩
  · by_cases hc : c = e.clock
    · subst hc
      exact .inr (by simp [step, call_stamp])
    · rcases hs.clock_mem c with h | h
      · exact .inl (by simp [step, hc, h])
      · exact .inr (by simp [step, hc, h])
  · simp only [step] at ht ⊢
    rcases Nat.lt_or_ge i es.length with hi | hi
    · rw [List.getElem?_append_left (by omega)] at hf
      rw [List.getElem?_append_left (by rw [hs.length]; omega)] at ht
      have hle := hs.stamp_le i f t hf ht
      by_cases hc : f.clock = e.clock
      · rw [hc, Function.update_same, call_stamp]
        rw [hc] at hle
        exact Nat.le_trans hle (Nat.le_of_lt hgt)
      · rwa [Function.update_noteq hc]
    · rw [List.getElem?_append_right (by omega)] at hf
      rw [List.getElem?_append_right (by rw [hs.length]; omega), hs.length] at ht
      have h1 : i - es.length < 1 := (List.getElem?_eq_some_iff.mp hf).1
      obtain rfl : i = es.length := by omega
      rw [Nat.sub_self] at hf ht
      simp only [List.getElem?_cons_zero, Option.some.injEq] at hf ht
      subst hf ht
      exact Nat.le_of_eq (by rw [Function.update_same, call_stamp])

theorem Received.of_append {es es' : List Event} (h : Received (es ++ es')) : Received es :=
  fun j c s p hj => h j c s p (by rw [List.getElem?_append_left (List.getElem?_eq_some_iff.mp hj).1]; exact hj)

theorem inv_foldl (es' : List Event) :
    ∀ (es : List Event) (s : Network), Inv es s → Received (es ++ es') →
      (∀ t ∈ (es'.foldl step s).log, t.logical ≠ u64Max) → Inv (es ++ es') (es'.foldl step s) := by
  induction es' with
  | nil => intro es s hs _ _; simpa using hs
  | cons e es' ih =>
    intro es s hs hr hov
    have hstep : Inv (es ++ [e]) (s.step e) := by
      refine inv_step hs (fun t ht => ?_) fun c src p he =>
        hr es.length c src p (by
          rw [← he, List.getElem?_append_right (Nat.le_refl _), Nat.sub_self, List.getElem?_cons_zero])
      obtain ⟨l, hl, -⟩ := foldl_log es' (s.step e)
      exact hov t (by rw [List.foldl_cons, hl]; exact List.mem_append_left _ ht)
    have := ih (es ++ [e]) (s.step e) hstep (by simpa using hr) hov
    simpa using this

/-- Every run whose timestamps stay below `u64::MAX` keeps `Inv`. -/
theorem inv_run {es : List Event} (hr : Received es)
    (hov : ∀ t ∈ (run es).log, t.logical ≠ u64Max) : Inv es (run es) :=
  inv_foldl es [] init inv_init hr hov

/-! ## The clock condition -/

section ClockCondition

variable {es : List Event} (hr : Received es) (hov : ∀ t ∈ (run es).log, t.logical ≠ u64Max)
include hr hov

/-- The state before position `j` keeps `Inv` below `u64::MAX`. -/
theorem take_inv (j : Nat) :
    Inv (es.take j) (run (es.take j)) ∧ ∀ t ∈ (run (es.take j)).log, t.logical ≠ u64Max := by
  obtain ⟨l, hl, -⟩ := foldl_log (es.drop j) (run (es.take j))
  have hov' : ∀ t ∈ (run (es.take j)).log, t.logical ≠ u64Max := fun t ht => hov t (by
    rw [← List.take_append_drop j es, run, List.foldl_append, ← run, hl]
    exact List.mem_append_left _ ht)
  have hr' : Received (es.take j ++ es.drop j) := by rw [List.take_append_drop]; exact hr
  exact ⟨inv_run hr'.of_append hov', hov'⟩

theorem happensBefore_key_lt {i j : Nat} (h : HappensBefore es i j) :
    ∃ a b, (run es).log[i]? = some a ∧ (run es).log[j]? = some b ∧ a.key < b.key := by
  induction h with
  | @program i j e f hij hi hj hc =>
    obtain ⟨hs, hov'⟩ := take_inv hr hov j
    have hit : i < (es.take j).length := by
      rw [List.length_take_of_le (Nat.le_of_lt (List.getElem?_eq_some_iff.mp hj).1)]; exact hij
    obtain ⟨a, ha⟩ : ∃ a, (run (es.take j)).log[i]? = some a :=
      ⟨_, List.getElem?_eq_getElem (hs.length ▸ hit)⟩
    refine ⟨a, _, ?_, log_getElem?_run hj, ?_⟩
    · rw [← ha, ← log_getElem?_append (es.drop j) hit, List.take_append_drop]
    · have hle := hs.stamp_le i e a (by rw [List.getElem?_take_of_lt hij]; exact hi) ha
      rw [hc] at hle
      refine Nat.lt_of_le_of_lt hle (hs.key_lt_call hov' fun c src p hf => ?_)
      rw [List.length_take_of_le (Nat.le_of_lt (List.getElem?_eq_some_iff.mp hj).1)]
      exact hr j c src p (hf ▸ hj)
  | @receive i j c p hj =>
    obtain ⟨hs, hov'⟩ := take_inv hr hov j
    have hit : i < (es.take j).length := by
      rw [List.length_take_of_le (Nat.le_of_lt (List.getElem?_eq_some_iff.mp hj).1)]
      exact hr j c i p hj
    obtain ⟨a, ha⟩ : ∃ a, (run (es.take j)).log[i]? = some a :=
      ⟨_, List.getElem?_eq_getElem (hs.length ▸ hit)⟩
    refine ⟨a, _, ?_, log_getElem?_run hj, ?_⟩
    · rw [← ha, ← log_getElem?_append (es.drop j) hit, List.take_append_drop]
    · have hget : (run (es.take j)).log.getD i ⟨0, 0⟩ = a := by
        rw [List.getD_eq_getElem?_getD, ha]; rfl
      simp only [Event.clock, Event.toCall, call, hget]
      exact update_key_gt_remote _ _ _ (hs.counter_ne hov' c) (hov' _ (List.getElem?_mem ha))
  | trans _ _ ih₁ ih₂ =>
    obtain ⟨a, b, ha, hb, hab⟩ := ih₁
    obtain ⟨b', c, hb', hc, hbc⟩ := ih₂
    obtain rfl : b = b' := Option.some.inj (hb.symm.trans hb')
    exact ⟨a, c, ha, hc, Nat.lt_trans hab hbc⟩

/-- The clock condition: an event that happens before another has the smaller timestamp. -/
theorem happensBefore_compare_lt {i j : Nat} (h : HappensBefore es i j) :
    ∃ a b, (run es).log[i]? = some a ∧ (run es).log[j]? = some b ∧ a.compare b = .lt := by
  obtain ⟨a, b, ha, hb, hab⟩ := happensBefore_key_lt hr hov h
  exact ⟨a, b, ha, hb, HLCTimestamp.compare_eq_lt_iff.mpr hab⟩

end ClockCondition

/-- Clock `1` receives the timestamp of clock `0` while its own reading is behind. -/
theorem happensBefore_compare_lt_receive :
    let es := [Event.now 0 5, Event.update 1 0 3]
    Received es ∧ (∀ t ∈ (run es).log, t.logical ≠ u64Max) ∧ HappensBefore es 0 1 ∧
      ∃ a b, (run es).log[0]? = some a ∧ (run es).log[1]? = some b ∧ a.compare b = .lt := by
  intro es
  have hr : Received es := by
    intro j c s p h
    match j, h with
    | 1, h => cases h; decide
  have hov : ∀ t ∈ (run es).log, t.logical ≠ u64Max := by decide
  have hb : HappensBefore es 0 1 := .receive rfl
  exact ⟨hr, hov, hb, happensBefore_compare_lt hr hov hb⟩

end Network

end RustCore.Hlc
