import RustCore.Hlc.Clock

/-!
# The hybrid logical clock under concurrent calls

`now` and `update` read and write the two atomics of the clock with separate `SeqCst`
operations: a `load` of `last_physical`, then `store`s of both atomics, or a `fetch_add` of
`logical_counter`, or a `load` and a `store` of it. Each operation is one step of
`Thread.step`; the reading of the system clock and the branch taken are local to the call. A
`Pool` holds the clock and the calls in flight, and `Pool.run` interleaves their steps in the
order of a schedule.

1. A call whose steps are not interleaved with others returns what the sequential model
   returns (`run_solo`), so a schedule that runs the calls one after another computes
   `HybridLogicalClock.stamps` (`run_serial`).
2. Interleaved calls do not: two `now` calls that both load `last_physical` before either
   stores return the same timestamp, and a call that stores an older `last_physical` after a
   newer one makes a later call return a smaller timestamp (`concurrent_now_race`).
3. Whatever the other calls do, a call has returned once it has made three atomic operations:
   the code has no retry loop, and the clock is wait-free (`returns_within_three_steps`).
4. Interleaving loses the order but invents no time: along every run, the clock's
   `last_physical` and the physical time of every returned timestamp are the starting
   `last_physical` or a reading or remote physical time of one of the calls
   (`run_physical_seen`).
-/

namespace RustCore.Hlc

open HybridLogicalClock

/-- Where a call is, between two atomic operations. -/
inductive Pc
  | start
  | storePhysical (ts : HLCTimestamp)
  | storeLogical (ts : HLCTimestamp)
  | loadLogical (lastPhysical remoteLogical : UInt64)
  | fetchAdd (lastPhysical : UInt64)
  | done (ts : HLCTimestamp)
  deriving DecidableEq, Repr

/-- A call of `now` or `update` in flight. -/
structure Thread where
  call : Call
  pc : Pc
  deriving DecidableEq, Repr

namespace Thread

/-- A call not yet started. -/
def start (k : Call) : Thread := ⟨k, .start⟩

/-- The next atomic operation of a call on the shared clock. The first one loads
`last_physical` and chooses the branch; a branch that advances the physical time stores
`last_physical`, then `logical_counter`. -/
def step (c : HybridLogicalClock) (t : Thread) : HybridLogicalClock × Thread :=
  match t.pc with
  | .start =>
    let lastPhysical := c.lastPhysical
    let pc := match t.call with
      | .now physicalNow =>
        if physicalNow > lastPhysical then Pc.storePhysical ⟨physicalNow, 0⟩
        else .fetchAdd lastPhysical
      | .update remoteTs physicalNow =>
        let maxPhysical := max physicalNow remoteTs.physical
        if maxPhysical > lastPhysical then
          .storePhysical ⟨maxPhysical,
            if maxPhysical = remoteTs.physical then remoteTs.logical + 1 else 0⟩
        else if lastPhysical = remoteTs.physical then .loadLogical lastPhysical remoteTs.logical
        else .fetchAdd lastPhysical
    (c, { t with pc })
  | .storePhysical ts => ({ c with lastPhysical := ts.physical }, { t with pc := .storeLogical ts })
  | .storeLogical ts => ({ c with logicalCounter := ts.logical }, { t with pc := .done ts })
  | .loadLogical lastPhysical remoteLogical =>
    let currentLogical := c.logicalCounter
    (c, { t with pc := .storeLogical ⟨lastPhysical, max currentLogical remoteLogical + 1⟩ })
  | .fetchAdd lastPhysical =>
    let logical := c.logicalCounter + 1
    ({ c with logicalCounter := logical }, { t with pc := .done ⟨lastPhysical, logical⟩ })
  | .done _ => (c, t)

theorem step_start_now (c : HybridLogicalClock) (p : UInt64) :
    (start (.now p)).step c = (c, ⟨.now p,
      if p > c.lastPhysical then .storePhysical ⟨p, 0⟩ else .fetchAdd c.lastPhysical⟩) := rfl

theorem step_start_update (c : HybridLogicalClock) (r : HLCTimestamp) (p : UInt64) :
    (start (.update r p)).step c = (c, ⟨.update r p,
      if max p r.physical > c.lastPhysical then
        .storePhysical ⟨max p r.physical,
          if max p r.physical = r.physical then r.logical + 1 else 0⟩
      else if c.lastPhysical = r.physical then .loadLogical c.lastPhysical r.logical
      else .fetchAdd c.lastPhysical⟩) := rfl

/-- Three steps finish any call, and with no other call between them the call returns and
leaves what `call` returns and leaves. -/
theorem step_three (c : HybridLogicalClock) (k : Call) :
    let s₁ := (start k).step c
    let s₂ := s₁.2.step s₁.1
    s₂.2.step s₂.1 = ((c.call k).2, ⟨k, .done (c.call k).1⟩) := by
  cases k with
  | now p =>
    simp only [step_start_now, HybridLogicalClock.call, now]
    split_ifs <;> rfl
  | update r p =>
    simp only [step_start_update, HybridLogicalClock.call, update]
    split_ifs <;> rfl

end Thread

/-- The shared clock and the calls in flight on it. -/
structure Pool where
  clock : HybridLogicalClock
  threads : List Thread
  deriving DecidableEq, Repr

namespace Pool

/-- Call `i` makes its next atomic operation. -/
def step (p : Pool) (i : Nat) : Pool :=
  match p.threads[i]? with
  | some t => let s := t.step p.clock; ⟨s.1, p.threads.set i s.2⟩
  | none => p

/-- A schedule: the calls that move, in order. -/
def run (p : Pool) (sched : List Nat) : Pool := sched.foldl step p

theorem run_append (p : Pool) (s₁ s₂ : List Nat) : p.run (s₁ ++ s₂) = (p.run s₁).run s₂ :=
  List.foldl_append _ _ _ _

theorem step_of_getElem? {p : Pool} {i : Nat} {t : Thread} (h : p.threads[i]? = some t) :
    p.step i = ⟨(t.step p.clock).1, p.threads.set i (t.step p.clock).2⟩ := by
  simp [step, h]

/-- A call that runs alone from its start to its end behaves as the sequential model. -/
theorem run_solo {p : Pool} {i : Nat} {k : Call} (h : p.threads[i]? = some (Thread.start k)) :
    p.run [i, i, i] =
      ⟨(p.clock.call k).2, p.threads.set i ⟨k, .done (p.clock.call k).1⟩⟩ := by
  have hi : i < p.threads.length := (List.getElem?_eq_some_iff.mp h).1
  have h3 := Thread.step_three p.clock k
  simp only [] at h3
  simp only [run, List.foldl_cons, List.foldl_nil, step, h, List.getElem?_set_self, hi,
    List.length_set, List.set_set, h3]

/-- The schedule that runs calls `n`, …, `n + m - 1` one after another. -/
def serial (n m : Nat) : List Nat := (List.range' n m).flatMap fun i => [i, i, i]

/-- Run one after another, the calls return the timestamps of the sequential model and leave
the clock it leaves. -/
theorem run_serial (c : HybridLogicalClock) (pre : List Thread) (ks : List Call) :
    (⟨c, pre ++ ks.map Thread.start⟩ : Pool).run (serial pre.length ks.length) =
      ⟨c.exec ks, pre ++ (ks.zip (c.stamps ks)).map fun kt => ⟨kt.1, .done kt.2⟩⟩ := by
  induction ks generalizing c pre with
  | nil => simp [serial, run, exec, stamps]
  | cons k ks ih =>
    have hsolo : (⟨c, pre ++ (k :: ks).map Thread.start⟩ : Pool).run [pre.length, pre.length,
        pre.length] = ⟨(c.call k).2, (pre ++ [⟨k, .done (c.call k).1⟩]) ++ ks.map Thread.start⟩ := by
      rw [@run_solo _ _ k (by rw [List.getElem?_append_right (Nat.le_refl _)]; simp [Thread.start])]
      simp
    have := ih (c.call k).2 (pre ++ [⟨k, .done (c.call k).1⟩])
    simp only [List.length_append, List.length_singleton] at this
    rw [serial, List.length_cons, List.range'_succ, List.flatMap_cons, run_append, ← serial,
      hsolo, this]
    simp [exec, stamps]

end Pool

/-- Two `now` calls at reading 1 on a fresh clock both load `last_physical = 0` before either
stores, and both return `(1, 0)`. Then `now` at 10 and at 20 race the same way, and the call at
10 stores `last_physical = 10` after the call at 20 has returned `(20, 0)`: a `now` at 5 that
starts after both have returned gets `(10, 1)`, which compares below `(20, 0)`. -/
theorem concurrent_now_race :
    (⟨new, [.start (.now 1), .start (.now 1)]⟩ : Pool).run [0, 1, 0, 0, 1, 1] =
        ⟨⟨0, 1⟩, [⟨.now 1, .done ⟨1, 0⟩⟩, ⟨.now 1, .done ⟨1, 0⟩⟩]⟩ ∧
      (⟨new, [.start (.now 10), .start (.now 20), .start (.now 5)]⟩ : Pool).run
          [0, 1, 1, 1, 0, 0, 2, 2] =
        ⟨⟨1, 10⟩, [⟨.now 10, .done ⟨10, 0⟩⟩, ⟨.now 20, .done ⟨20, 0⟩⟩,
          ⟨.now 5, .done ⟨10, 1⟩⟩]⟩ ∧
      (⟨10, 1⟩ : HLCTimestamp).compare ⟨20, 0⟩ = .lt :=
  ⟨by decide, by decide, by decide⟩

/-! ## Every call returns after three of its own steps -/

namespace Pc

/-- How far a call is: the atomic operations behind it, `done` counting as three. -/
def rank : Pc → Nat
  | start => 0
  | storePhysical _ | loadLogical _ _ | fetchAdd _ => 1
  | storeLogical _ => 2
  | done _ => 3

theorem eq_done_of_three_le_rank {pc : Pc} (h : 3 ≤ pc.rank) : ∃ ts, pc = .done ts := by
  cases pc <;> simp_all [rank]

end Pc

namespace Thread

@[simp] theorem step_call (c : HybridLogicalClock) (t : Thread) : (t.step c).2.call = t.call := by
  unfold step; split <;> rfl

/-- Each step of a call brings it one operation nearer its end; the code has no loop. -/
theorem step_rank (c : HybridLogicalClock) (t : Thread) :
    min (t.pc.rank + 1) 3 ≤ (t.step c).2.pc.rank := by
  obtain ⟨k, pc⟩ := t
  cases pc
  case start => cases k <;> simp only [step] <;> split_ifs <;> simp [Pc.rank]
  all_goals (simp only [step, Pc.rank]; decide)

end Thread

namespace Pool

theorem step_getElem?_ne (p : Pool) {i j : Nat} (h : j ≠ i) :
    (p.step j).threads[i]? = p.threads[i]? := by
  unfold step
  split
  · exact List.getElem?_set_ne h
  · rfl

theorem step_getElem?_self {p : Pool} {i : Nat} {t : Thread} (h : p.threads[i]? = some t) :
    (p.step i).threads[i]? = some (t.step p.clock).2 := by
  rw [step_of_getElem? h, List.getElem?_set_self (List.getElem?_eq_some_iff.mp h).1]

/-- Whatever the other calls do, call `i` is nearer its end by each of its own steps. -/
theorem run_rank {p : Pool} {i : Nat} {t : Thread} (h : p.threads[i]? = some t)
    (sched : List Nat) : ∃ t', (p.run sched).threads[i]? = some t' ∧ t'.call = t.call ∧
      min (t.pc.rank + sched.count i) 3 ≤ t'.pc.rank := by
  induction sched generalizing p t with
  | nil => exact ⟨t, h, rfl, Nat.min_le_left _ _⟩
  | cons j sched ih =>
    by_cases hj : j = i
    · subst hj
      obtain ⟨t', ht', hcall, hrank⟩ := ih (step_getElem?_self h)
      have := Thread.step_rank p.clock t
      refine ⟨t', ht', by simp [hcall], ?_⟩
      rw [List.count_cons_self]
      omega
    · obtain ⟨t', ht', hcall, hrank⟩ := ih ((step_getElem?_ne p hj).trans h)
      exact ⟨t', ht', hcall, by rwa [List.count_cons_of_ne (Ne.symm hj)]⟩

end Pool

/-- Whatever the other calls do in between, a call of `now` or `update` has returned once it has
made three atomic operations: the clock is wait-free. -/
theorem returns_within_three_steps {p : Pool} {i : Nat} {k : Call}
    (h : p.threads[i]? = some (Thread.start k)) (sched : List Nat) (h3 : 3 ≤ sched.count i) :
    ∃ ts, (p.run sched).threads[i]? = some ⟨k, .done ts⟩ := by
  obtain ⟨⟨k', pc⟩, ht', hcall, hrank⟩ := Pool.run_rank h sched
  have h0 : (Thread.start k).pc.rank = 0 := rfl
  rw [h0, Nat.zero_add] at hrank
  dsimp only at hrank
  have h3' : 3 ≤ pc.rank := by omega
  obtain ⟨ts, rfl⟩ := Pc.eq_done_of_three_le_rank h3'
  exact ⟨ts, by rw [ht']; simp only [Thread.start] at hcall; rw [hcall]⟩

/-- The third call starts after the first two have returned and returns after its second step,
the first call's three steps being spread over the whole run. -/
theorem returns_within_three_steps_race :
    let p : Pool := ⟨new, [.start (.now 10), .start (.now 20), .start (.now 5)]⟩
    let sched := [0, 1, 1, 1, 0, 2, 2, 0]
    p.threads[0]? = some (.start (.now 10)) ∧ 3 ≤ sched.count 0 ∧
      ∃ ts, (p.run sched).threads[0]? = some ⟨.now 10, .done ts⟩ := by
  intro p sched
  have h : p.threads[0]? = some (.start (.now 10)) := rfl
  have h3 : 3 ≤ sched.count 0 := by decide
  exact ⟨h, h3, returns_within_three_steps h sched h3⟩

/-! ## The physical times of a run -/

namespace Pc

/-- The physical time a call holds between its steps: the one it stores or returns. -/
def physical? : Pc → Option UInt64
  | start => none
  | storePhysical ts | storeLogical ts | done ts => some ts.physical
  | loadLogical lastPhysical _ | fetchAdd lastPhysical => some lastPhysical

end Pc

theorem max_eq_or (a b : UInt64) : max a b = a ∨ max a b = b := by
  show (if a ≤ b then b else a) = a ∨ (if a ≤ b then b else a) = b
  split
  · exact .inr rfl
  · exact .inl rfl

/-- The physical times of `seen` are all a state shows: its clock's, those each call holds, and
the readings and remote times of the calls. -/
structure Seen (seen : List UInt64) (p : Pool) : Prop where
  clock : p.clock.lastPhysical ∈ seen
  call : ∀ t ∈ p.threads, ∀ x ∈ t.call.physicals, x ∈ seen
  pc : ∀ t ∈ p.threads, ∀ x ∈ t.pc.physical?, x ∈ seen

namespace Thread

/-- A step takes its physical time from the clock or from its own call. -/
theorem step_seen {seen : List UInt64} {c : HybridLogicalClock} {t : Thread}
    (hc : c.lastPhysical ∈ seen) (hk : ∀ x ∈ t.call.physicals, x ∈ seen)
    (ht : ∀ x ∈ t.pc.physical?, x ∈ seen) :
    (t.step c).1.lastPhysical ∈ seen ∧ ∀ x ∈ (t.step c).2.pc.physical?, x ∈ seen := by
  obtain ⟨k, pc⟩ := t
  cases pc
  case start =>
    refine ⟨hc, fun x hx => ?_⟩
    cases k with
    | now p =>
      rw [show (⟨.now p, .start⟩ : Thread) = start (.now p) from rfl, step_start_now] at hx
      split_ifs at hx <;> simp only [Pc.physical?, Option.mem_def, Option.some.injEq] at hx <;>
        subst hx
      · exact hk _ (List.mem_singleton_self _)
      · exact hc
    | update r p =>
      rw [show (⟨.update r p, .start⟩ : Thread) = start (.update r p) from rfl,
        step_start_update] at hx
      have hmax : max p r.physical ∈ seen := by
        rcases max_eq_or p r.physical with h | h <;> rw [h] <;> exact hk _ (by simp [Call.physicals])
      split_ifs at hx <;> simp only [Pc.physical?, Option.mem_def, Option.some.injEq] at hx <;>
        subst hx <;> assumption
  case storePhysical ts => exact ⟨ht _ rfl, ht⟩
  all_goals exact ⟨hc, ht⟩

end Thread

theorem Seen.step {seen : List UInt64} {p : Pool} (hs : Seen seen p) (i : Nat) :
    Seen seen (p.step i) := by
  rcases hi : p.threads[i]? with _ | t
  · simpa [Pool.step, hi] using hs
  have ht := List.getElem?_mem hi
  obtain ⟨hc, hpc⟩ := Thread.step_seen hs.clock (hs.call t ht) (hs.pc t ht)
  rw [Pool.step_of_getElem? hi]
  refine ⟨hc, fun u hu => ?_, fun u hu => ?_⟩ <;>
    rcases List.mem_or_eq_of_mem_set hu with hu | rfl
  · exact hs.call u hu
  · simpa using hs.call t ht
  · exact hs.pc u hu
  · exact hpc

theorem Seen.run {seen : List UInt64} {p : Pool} (hs : Seen seen p) (sched : List Nat) :
    Seen seen (p.run sched) := by
  induction sched generalizing p with
  | nil => exact hs
  | cons i sched ih => exact ih (hs.step i)

/-- Whatever the interleaving, the clock's `last_physical` and the physical time of every
returned timestamp are the starting `last_physical` or a reading or remote physical time of one
of the calls: no physical time is invented, so none runs ahead of what the clock was shown. -/
theorem run_physical_seen (c : HybridLogicalClock) (ks : List Call) (sched : List Nat) :
    let p := (⟨c, ks.map Thread.start⟩ : Pool).run sched
    let seen := c.lastPhysical :: ks.flatMap Call.physicals
    p.clock.lastPhysical ∈ seen ∧ ∀ t ∈ p.threads, ∀ ts, t.pc = .done ts → ts.physical ∈ seen := by
  intro p seen
  have h₀ : Seen seen ⟨c, ks.map Thread.start⟩ := by
    refine ⟨List.mem_cons_self _ _, fun t ht x hx => ?_, fun t ht x hx => ?_⟩ <;>
      obtain ⟨k, hk, rfl⟩ := List.mem_map.mp ht
    · exact List.mem_cons_of_mem _ (List.mem_flatMap.mpr ⟨k, hk, hx⟩)
    · simp [Thread.start, Pc.physical?] at hx
  have hs := h₀.run sched
  exact ⟨hs.clock, fun t ht ts hd => hs.pc t ht _ (by simp [hd, Pc.physical?])⟩

end RustCore.Hlc
