import RustCore.Word
import Mathlib.Algebra.BigOperators.Group.List

/-!
# The metrics collector under concurrent recorders

`MetricsCollector` is six `AtomicU64`s. `record_request` adds to three counters with `fetch_add`
and lowers the minimum and raises the maximum latency with a `compare_exchange_weak` loop.
Each atomic operation is one step of `Recorder.step`; a run interleaves the steps of any number
of calls in any order, and every weak exchange may fail spuriously (`Recording.run`).

1. `Inv` holds along every run: each counter counts the calls past its `fetch_add`, the minimum
   is at most every latency whose loop is left and every `current_min` a loop holds, and it is
   `u64::MAX` or a recorded latency; dually for the maximum (`inv_run`).
2. Once every call has returned, the snapshot reports the number of calls, of successes and of
   failures, and the least and greatest latency (`getSnapshot_of_all_returned`).
3. Once every call has returned, the six atomics hold what `record_request` made for each call
   in turn, without interference, leaves, in whichever order the calls are taken
   (`all_returned_eq_sequential`). Both sides are shown to satisfy `MetricsCollector.Recorded`,
   which fixes every field.
4. A `get_snapshot` whose six loads interleave with the recorders reports, field by field, no
   more than the calls made and latencies of calls (`snapshot_while_recording`); its fields
   need not agree with one another.
-/

namespace RustCore.GeoSidecar

open U64

/-- `MetricsSnapshot`. -/
structure MetricsSnapshot where
  totalRequests : UInt64
  successfulRequests : UInt64
  failedRequests : UInt64
  avgLatencyMicros : Float
  minLatencyMicros : UInt64
  maxLatencyMicros : UInt64

/-- The six atomics of `MetricsCollector`. -/
structure MetricsCollector where
  totalRequests : UInt64
  successfulRequests : UInt64
  failedRequests : UInt64
  totalLatencyMicros : UInt64
  minLatencyMicros : UInt64
  maxLatencyMicros : UInt64
  deriving DecidableEq, Repr

namespace MetricsCollector

/-- `MetricsCollector::new`: the minimum starts at the sentinel `u64::MAX`. -/
def new : MetricsCollector := ⟨0, 0, 0, 0, u64Max, 0⟩

/-- `MetricsCollector::record_request` made without interference: every loop ends at its first
exchange. -/
def recordRequest (self : MetricsCollector) (latencyMicros : UInt64) (success : Bool) :
    MetricsCollector :=
  { totalRequests := self.totalRequests + 1
    totalLatencyMicros := self.totalLatencyMicros + latencyMicros
    successfulRequests := if success then self.successfulRequests + 1 else self.successfulRequests
    failedRequests := if success then self.failedRequests else self.failedRequests + 1
    minLatencyMicros :=
      if latencyMicros < self.minLatencyMicros then latencyMicros else self.minLatencyMicros
    maxLatencyMicros :=
      if latencyMicros > self.maxLatencyMicros then latencyMicros else self.maxLatencyMicros }

/-- `MetricsCollector::get_snapshot`: the average as `f64`, `0` for the sentinel minimum. -/
def getSnapshot (self : MetricsCollector) : MetricsSnapshot :=
  let totalRequests := self.totalRequests
  let avgLatencyMicros :=
    if totalRequests > 0 then self.totalLatencyMicros.toFloat / totalRequests.toFloat else 0.0
  let minLatencyMicros := if self.minLatencyMicros = u64Max then 0 else self.minLatencyMicros
  ⟨totalRequests, self.successfulRequests, self.failedRequests, avgLatencyMicros,
    minLatencyMicros, self.maxLatencyMicros⟩

/-- `MetricsCollector::reset` stores the values of `new`. -/
def reset (_self : MetricsCollector) : MetricsCollector := new

/-! ### Calls recorded one after the other -/

/-- What `m'` holds once the calls `(latency, success)` are recorded on `m`: each counter moved
by its calls, modulo `2^64`, and the least and greatest latency taken with the old ones. -/
structure Recorded (m : MetricsCollector) (calls : List (UInt64 × Bool)) (m' : MetricsCollector) :
    Prop where
  total : m'.totalRequests.toNat = (m.totalRequests.toNat + calls.length) % 2 ^ 64
  successful :
    m'.successfulRequests.toNat = (m.successfulRequests.toNat + calls.countP (·.2)) % 2 ^ 64
  failed : m'.failedRequests.toNat = (m.failedRequests.toNat + calls.countP (!·.2)) % 2 ^ 64
  latency : m'.totalLatencyMicros.toNat =
    (m.totalLatencyMicros.toNat + (calls.map (·.1.toNat)).sum) % 2 ^ 64
  min : (m.minLatencyMicros :: calls.map (·.1)).min? = some m'.minLatencyMicros
  max : (m.maxLatencyMicros :: calls.map (·.1)).max? = some m'.maxLatencyMicros

variable {m m₁ m₂ m' : MetricsCollector} {calls calls' : List (UInt64 × Bool)}

/-- `Recorded` fixes every field. -/
theorem Recorded.eq (h₁ : Recorded m calls m₁) (h₂ : Recorded m calls m₂) : m₁ = m₂ := by
  cases m₁; cases m₂
  simp only [mk.injEq]
  exact ⟨U64.eq_iff.mpr (h₁.total.trans h₂.total.symm),
    U64.eq_iff.mpr (h₁.successful.trans h₂.successful.symm),
    U64.eq_iff.mpr (h₁.failed.trans h₂.failed.symm),
    U64.eq_iff.mpr (h₁.latency.trans h₂.latency.symm),
    Option.some.inj (h₁.min.symm.trans h₂.min), Option.some.inj (h₁.max.symm.trans h₂.max)⟩

/-- The order of the calls does not matter. -/
theorem Recorded.perm (h : Recorded m calls m') (hp : calls'.Perm calls) :
    Recorded m calls' m' where
  total := by rw [hp.length_eq]; exact h.total
  successful := by rw [hp.countP_eq]; exact h.successful
  failed := by rw [hp.countP_eq]; exact h.failed
  latency := by rw [(hp.map _).sum_eq]; exact h.latency
  min := by rw [U64.min?_perm ((hp.map _).cons _)]; exact h.min
  max := by rw [U64.max?_perm ((hp.map _).cons _)]; exact h.max

theorem recordRequest_minLatencyMicros (l : UInt64) (s : Bool) :
    (m.recordRequest l s).minLatencyMicros = min m.minLatencyMicros l := by
  refine U64.eq_iff.mpr ?_
  simp only [recordRequest, U64.toNat_min]
  split <;> simp only [U64.lt_iff] at * <;> omega

theorem recordRequest_maxLatencyMicros (l : UInt64) (s : Bool) :
    (m.recordRequest l s).maxLatencyMicros = max m.maxLatencyMicros l := by
  refine U64.eq_iff.mpr ?_
  simp only [recordRequest, U64.toNat_max]
  split <;> simp only [gt_iff_lt, U64.lt_iff] at * <;> omega

/-- `record_request` made for each call in turn records them all. -/
theorem recorded_foldl (calls : List (UInt64 × Bool)) (m : MetricsCollector) :
    Recorded m calls (calls.foldl (fun m c => m.recordRequest c.1 c.2) m) := by
  induction calls generalizing m with
  | nil =>
    have h (x : UInt64) : x.toNat % 2 ^ 64 = x.toNat :=
      Nat.mod_eq_of_lt (UInt64.toNat_lt x)
    exact ⟨(h _).symm, (h _).symm, (h _).symm, (h _).symm, rfl, rfl⟩
  | cons c calls ih =>
    obtain ⟨l, s⟩ := c
    have h := ih (m.recordRequest l s)
    rw [List.foldl_cons]
    refine ⟨?total, ?successful, ?failed, ?latency, ?min, ?max⟩
    case min =>
      rw [List.map_cons, List.min?_cons', List.foldl_cons, ← recordRequest_minLatencyMicros l s]
      exact h.min
    case max =>
      rw [List.map_cons, List.max?_cons', List.foldl_cons, ← recordRequest_maxLatencyMicros l s]
      exact h.max
    case total =>
      rw [h.total, List.length_cons, Nat.add_comm _ 1]
      exact U64.toNat_add_mod _ _ _
    case latency =>
      rw [h.latency, List.map_cons, List.sum_cons]
      exact U64.toNat_add_mod _ _ _
    case successful =>
      rw [h.successful, List.countP_cons]
      cases s
      · rfl
      · rw [Nat.add_comm (List.countP _ calls)]
        exact U64.toNat_add_mod _ _ _
    case failed =>
      rw [h.failed, List.countP_cons]
      cases s
      · rw [Nat.add_comm (List.countP _ calls)]
        exact U64.toNat_add_mod _ _ _
      · rfl

end MetricsCollector

/-! ## Atomic steps of `record_request` -/

/-- `compare_exchange_weak(current, new)` on a register holding `stored`: the register after it,
and `Ok(previous)` or `Err(actual)`. A weak exchange may fail although `stored = current`. -/
def compareExchangeWeak (stored current new : UInt64) (spurious : Bool) :
    UInt64 × Except UInt64 UInt64 :=
  if stored = current ∧ spurious = false then (new, .ok stored) else (stored, .error stored)

/-- The loop `while beats latency current { match compare_exchange_weak(current, latency)
{ Ok(_) => break, Err(actual) => current = actual } }`, one exchange at a time: the register
after the exchange, and the `current` of the next iteration, `none` once the loop is left. -/
def casLoopStep (beats : UInt64 → UInt64 → Bool) (latency stored current : UInt64)
    (spurious : Bool) : UInt64 × Option UInt64 :=
  match compareExchangeWeak stored current latency spurious with
  | (stored', .ok _) => (stored', none)
  | (stored', .error actual) => (stored', if beats latency actual then some actual else none)

/-- Where a `record_request` call is, between two atomic operations. -/
inductive RecordPc
  | addTotal
  | addLatency
  | addOutcome
  | loadMin
  | casMin (currentMin : UInt64)
  | loadMax
  | casMax (currentMax : UInt64)
  | done
  deriving DecidableEq, Repr

/-- How far a call is: the number of its statements behind it. -/
def RecordPc.rank : RecordPc → Nat
  | addTotal => 0
  | addLatency => 1
  | addOutcome => 2
  | loadMin => 3
  | casMin _ => 4
  | loadMax => 5
  | casMax _ => 6
  | done => 7

/-- The minimum loop at `current`, or the maximum loop once it is left. -/
def RecordPc.ofMin : Option UInt64 → RecordPc
  | some current => casMin current
  | none => loadMax

/-- The maximum loop at `current`, or the end of the call once it is left. -/
def RecordPc.ofMax : Option UInt64 → RecordPc
  | some current => casMax current
  | none => done

/-- One call of `record_request`: its arguments and where it is. -/
structure Recorder where
  latencyMicros : UInt64
  success : Bool
  pc : RecordPc
  deriving DecidableEq, Repr

/-- The next atomic operation of a call. `spurious` decides whether a weak exchange that could
succeed fails. -/
def Recorder.step (m : MetricsCollector) (r : Recorder) (spurious : Bool) :
    MetricsCollector × Recorder :=
  match r.pc with
  | .addTotal => ({ m with totalRequests := m.totalRequests + 1 }, { r with pc := .addLatency })
  | .addLatency =>
    ({ m with totalLatencyMicros := m.totalLatencyMicros + r.latencyMicros },
      { r with pc := .addOutcome })
  | .addOutcome =>
    (if r.success then { m with successfulRequests := m.successfulRequests + 1 }
      else { m with failedRequests := m.failedRequests + 1 }, { r with pc := .loadMin })
  | .loadMin =>
    let currentMin := m.minLatencyMicros
    (m, { r with pc := .ofMin (if r.latencyMicros < currentMin then some currentMin else none) })
  | .casMin currentMin =>
    let res := casLoopStep (fun a b => a < b) r.latencyMicros m.minLatencyMicros currentMin spurious
    ({ m with minLatencyMicros := res.1 }, { r with pc := .ofMin res.2 })
  | .loadMax =>
    let currentMax := m.maxLatencyMicros
    (m, { r with pc := .ofMax (if r.latencyMicros > currentMax then some currentMax else none) })
  | .casMax currentMax =>
    let res := casLoopStep (fun a b => a > b) r.latencyMicros m.maxLatencyMicros currentMax spurious
    ({ m with maxLatencyMicros := res.1 }, { r with pc := .ofMax res.2 })
  | .done => (m, r)

/-- One exchange of the loop: it succeeds, and the loop is left, or it leaves the register as it
is and the loop goes on from the value read while `latency` still beats it. -/
theorem casLoopStep_eq (beats : UInt64 → UInt64 → Bool) (latency stored current : UInt64)
    (spurious : Bool) :
    casLoopStep beats latency stored current spurious =
      if stored = current ∧ spurious = false then (latency, none)
      else (stored, if beats latency stored then some stored else none) := by
  by_cases h : stored = current ∧ spurious = false <;> simp [casLoopStep, compareExchangeWeak, h]

namespace Recorder

/-! ### What one atomic operation does -/

variable (m : MetricsCollector) (r : Recorder) (sp : Bool)

@[simp] theorem step_latencyMicros : (r.step m sp).2.latencyMicros = r.latencyMicros := by
  unfold step; split <;> rfl

@[simp] theorem step_success : (r.step m sp).2.success = r.success := by
  unfold step; split <;> rfl

theorem step_rank_le : r.pc.rank ≤ (r.step m sp).2.pc.rank := by
  cases h : r.pc <;> simp only [step, h, casLoopStep_eq] <;> (try split_ifs) <;>
    simp [RecordPc.ofMin, RecordPc.ofMax, RecordPc.rank]

/-- The three `fetch_add`s come one after the other. -/
theorem step_rank_of_lt (h : r.pc.rank < 3) : (r.step m sp).2.pc.rank = r.pc.rank + 1 := by
  cases hp : r.pc <;> simp [step, hp, RecordPc.rank] at h ⊢

/-- A call passes a statement `k ≤ 3` only by the step from the one before it. -/
theorem step_le_rank_iff {k : Nat} (hk : k ≤ 3) (h : r.pc.rank + 1 ≠ k) :
    k ≤ (r.step m sp).2.pc.rank ↔ k ≤ r.pc.rank := by
  have := step_rank_le m r sp
  have := step_rank_of_lt m r sp
  omega

theorem step_totalRequests :
    (r.step m sp).1.totalRequests =
      if r.pc.rank = 0 then m.totalRequests + 1 else m.totalRequests := by
  cases h : r.pc <;> cases hs : r.success <;> simp [step, h, hs, RecordPc.rank]

theorem step_successfulRequests :
    (r.step m sp).1.successfulRequests =
      if r.pc.rank = 2 ∧ r.success then m.successfulRequests + 1 else m.successfulRequests := by
  cases h : r.pc <;> cases hs : r.success <;> simp [step, h, hs, RecordPc.rank]

theorem step_failedRequests :
    (r.step m sp).1.failedRequests =
      if r.pc.rank = 2 ∧ !r.success then m.failedRequests + 1 else m.failedRequests := by
  cases h : r.pc <;> cases hs : r.success <;> simp [step, h, hs, RecordPc.rank]

theorem step_totalLatencyMicros :
    (r.step m sp).1.totalLatencyMicros =
      if r.pc.rank = 1 then m.totalLatencyMicros + r.latencyMicros else m.totalLatencyMicros := by
  cases h : r.pc <;> simp [step, h, RecordPc.rank, apply_ite MetricsCollector.totalLatencyMicros]

/-! ### The minimum loop -/

/-- Only a successful exchange from `current_min` moves the minimum, to the latency. -/
theorem step_minLatencyMicros :
    (r.step m sp).1.minLatencyMicros = m.minLatencyMicros ∨
      ((r.step m sp).1.minLatencyMicros = r.latencyMicros ∧
        r.pc = .casMin m.minLatencyMicros) := by
  cases h : r.pc <;> simp [step, h, casLoopStep_eq, apply_ite MetricsCollector.minLatencyMicros]
  case casMin c => split_ifs <;> simp_all

/-- A loop that goes on holds the minimum it has just read, and the latency beats it. -/
theorem step_casMin {c : UInt64} (hc : (r.step m sp).2.pc = .casMin c) :
    c = m.minLatencyMicros ∧ r.latencyMicros < c := by
  cases h : r.pc <;> simp only [step, h, casLoopStep_eq] at hc
  all_goals first
    | split_ifs at hc <;> cases hc <;> simp_all [RecordPc.ofMin]
    | cases hc

/-- A call that leaves the minimum loop leaves the minimum at most its latency. -/
theorem step_min_le (h₁ : r.pc.rank < 5) (h₂ : 5 ≤ (r.step m sp).2.pc.rank) :
    (r.step m sp).1.minLatencyMicros ≤ r.latencyMicros := by
  cases h : r.pc <;> simp only [step, h, casLoopStep_eq] at h₁ h₂ ⊢ <;> (try split_ifs at h₂ ⊢) <;>
    simp_all [RecordPc.ofMin, RecordPc.rank]

/-! ### The maximum loop -/

/-- Only a successful exchange from `current_max` moves the maximum, to the latency. -/
theorem step_maxLatencyMicros :
    (r.step m sp).1.maxLatencyMicros = m.maxLatencyMicros ∨
      ((r.step m sp).1.maxLatencyMicros = r.latencyMicros ∧
        r.pc = .casMax m.maxLatencyMicros) := by
  cases h : r.pc <;> simp [step, h, casLoopStep_eq, apply_ite MetricsCollector.maxLatencyMicros]
  case casMax c => split_ifs <;> simp_all

/-- A loop that goes on holds the maximum it has just read, and the latency beats it. -/
theorem step_casMax {c : UInt64} (hc : (r.step m sp).2.pc = .casMax c) :
    c = m.maxLatencyMicros ∧ c < r.latencyMicros := by
  cases h : r.pc <;> simp only [step, h, casLoopStep_eq] at hc
  all_goals first
    | split_ifs at hc <;> cases hc <;> simp_all [RecordPc.ofMax]
    | cases hc

/-- A call that returns leaves the maximum at least its latency. -/
theorem step_le_max (h₁ : r.pc ≠ .done) (h₂ : (r.step m sp).2.pc = .done) :
    r.latencyMicros ≤ (r.step m sp).1.maxLatencyMicros := by
  cases h : r.pc <;> simp only [step, h, casLoopStep_eq] at h₁ h₂ ⊢ <;> (try split_ifs at h₂ ⊢) <;>
    simp_all [RecordPc.ofMin, RecordPc.ofMax]

end Recorder

/-- Concurrent calls of `record_request` on one collector. -/
structure Recording where
  metrics : MetricsCollector
  calls : List Recorder
  deriving DecidableEq, Repr

namespace Recording

/-- A fresh collector and the calls `(latency, success)`, none started. -/
def start (calls : List (UInt64 × Bool)) : Recording :=
  ⟨MetricsCollector.new, calls.map fun c => ⟨c.1, c.2, .addTotal⟩⟩

/-- Call `i` makes its next atomic operation. -/
def step (s : Recording) (i : Nat) (spurious : Bool) : Recording :=
  match s.calls[i]? with
  | some r => let p := r.step s.metrics spurious; ⟨p.1, s.calls.set i p.2⟩
  | none => s

/-- A schedule: which call moves, and whether its exchange fails spuriously. -/
def run (s : Recording) (sched : List (Nat × Bool)) : Recording :=
  sched.foldl (fun s a => s.step a.1 a.2) s

theorem run_cons (s : Recording) (a : Nat × Bool) (sched : List (Nat × Bool)) :
    s.run (a :: sched) = (s.step a.1 a.2).run sched := rfl

theorem step_of_getElem? {s : Recording} {i : Nat} {r : Recorder} (hi : s.calls[i]? = some r)
    (sp : Bool) : s.step i sp = ⟨(r.step s.metrics sp).1, s.calls.set i (r.step s.metrics sp).2⟩ := by
  simp [step, hi]

theorem step_of_getElem?_none {s : Recording} {i : Nat} (hi : s.calls[i]? = none) (sp : Bool) :
    s.step i sp = s := by
  simp [step, hi]

/-- The arguments of the calls never change. -/
theorem run_args (s : Recording) (sched : List (Nat × Bool)) :
    (s.run sched).calls.map (fun r => (r.latencyMicros, r.success)) =
      s.calls.map (fun r => (r.latencyMicros, r.success)) := by
  induction sched generalizing s with
  | nil => rfl
  | cons a sched ih =>
    rw [run_cons, ih]
    rcases hi : s.calls[a.1]? with _ | r
    · rw [step_of_getElem?_none hi]
    · rw [step_of_getElem? hi]
      exact map_set_of_getElem? hi (by simp)

/-! ## The invariant of a run -/

/-- A counter of the calls satisfying `p` stays exact when call `i` moves from `r` to `r'` and
the counter goes up by one exactly when `p` becomes true of the call. -/
theorem toNat_countP_set {l : List Recorder} {i : Nat} {r r' : Recorder} (hi : l[i]? = some r)
    (hlen : l.length < 2 ^ 64) (p : Recorder → Bool) {c c' : UInt64}
    (hc : c.toNat = l.countP p)
    (h : (p r = false ∧ p r' = true ∧ c' = c + 1) ∨ (p r' = p r ∧ c' = c)) :
    c'.toNat = (l.set i r').countP p := by
  obtain ⟨hil, rfl⟩ := List.getElem?_eq_some_iff.mp hi
  have hb := List.countP_le_length (p := p) (l := l.set i r')
  have hr := List.boole_getElem_le_countP p l i hil
  rw [List.countP_set _ _ _ _ hil] at hb ⊢
  rw [List.length_set] at hb
  rcases h with ⟨h₁, h₂, rfl⟩ | ⟨h₁, rfl⟩
  · simp only [h₁, h₂, UInt64.toNat_add, size_eq, Bool.false_eq_true, if_false, if_true] at hb hr ⊢
    rw [show (1 : UInt64).toNat = 1 from rfl, Nat.mod_eq_of_lt (by omega)]
    omega
  · rw [h₁]
    split_ifs at hr ⊢ <;> omega

/-- What every state of a run keeps. -/
structure Inv (s : Recording) : Prop where
  length_lt : s.calls.length < 2 ^ 64
  total : s.metrics.totalRequests.toNat = s.calls.countP fun r => 1 ≤ r.pc.rank
  successful :
    s.metrics.successfulRequests.toNat = s.calls.countP fun r => r.success && 3 ≤ r.pc.rank
  failed : s.metrics.failedRequests.toNat = s.calls.countP fun r => !r.success && 3 ≤ r.pc.rank
  min_current : ∀ r ∈ s.calls, ∀ c, r.pc = .casMin c →
    r.latencyMicros < c ∧ s.metrics.minLatencyMicros ≤ c
  min_left : ∀ r ∈ s.calls, 5 ≤ r.pc.rank → s.metrics.minLatencyMicros ≤ r.latencyMicros
  min_mem : s.metrics.minLatencyMicros = u64Max ∨
    s.metrics.minLatencyMicros ∈ s.calls.map (·.latencyMicros)
  max_current : ∀ r ∈ s.calls, ∀ c, r.pc = .casMax c →
    c < r.latencyMicros ∧ c ≤ s.metrics.maxLatencyMicros
  max_left : ∀ r ∈ s.calls, r.pc = .done → r.latencyMicros ≤ s.metrics.maxLatencyMicros
  max_mem : s.metrics.maxLatencyMicros = 0 ∨
    s.metrics.maxLatencyMicros ∈ s.calls.map (·.latencyMicros)

theorem inv_start {calls : List (UInt64 × Bool)} (hN : calls.length < 2 ^ 64) :
    Inv (start calls) := by
  have h0 : ∀ r ∈ (start calls).calls, r.pc = .addTotal := by
    intro r hr
    obtain ⟨c, -, rfl⟩ := List.mem_map.mp hr
    rfl
  refine ⟨by simpa [start] using hN, ?_, ?_, ?_, fun r hr c hc => ?_, fun r hr h5 => ?_, .inl rfl,
    fun r hr c hc => ?_, fun r hr hd => ?_, .inl rfl⟩
  all_goals first
    | rw [h0 r hr] at *; simp [RecordPc.rank] at *
    | simp [start, MetricsCollector.new, RecordPc.rank, Function.comp_def]

theorem inv_step {s : Recording} (hs : Inv s) (i : Nat) (sp : Bool) : Inv (s.step i sp) := by
  rcases hi : s.calls[i]? with _ | r
  · rwa [step_of_getElem?_none hi]
  rw [step_of_getElem? hi]
  have hr : r ∈ s.calls := List.getElem?_mem hi
  have hmin_le : (r.step s.metrics sp).1.minLatencyMicros.toNat ≤
      s.metrics.minLatencyMicros.toNat := by
    rcases r.step_minLatencyMicros s.metrics sp with h | ⟨h, hc⟩
    · exact Nat.le_of_eq (congrArg _ h)
    · rw [h]; exact Nat.le_of_lt (hs.min_current r hr _ hc).1
  have hmax_ge : s.metrics.maxLatencyMicros.toNat ≤
      (r.step s.metrics sp).1.maxLatencyMicros.toNat := by
    rcases r.step_maxLatencyMicros s.metrics sp with h | ⟨h, hc⟩
    · exact Nat.le_of_eq (congrArg _ h.symm)
    · rw [h]; exact Nat.le_of_lt (hs.max_current r hr _ hc).1
  have hlats := map_set_of_getElem? (f := (·.latencyMicros)) hi (r.step_latencyMicros s.metrics sp)
  refine ⟨by simpa using hs.length_lt, ?total, ?successful, ?failed, ?min_current, ?min_left,
    ?min_mem, ?max_current, ?max_left, ?max_mem⟩
  case total =>
    refine toNat_countP_set hi hs.length_lt _ hs.total ?_
    rw [r.step_totalRequests]
    by_cases h : r.pc.rank = 0 <;>
      simp (disch := omega) [h, Recorder.step_rank_of_lt, Recorder.step_le_rank_iff]
  case successful =>
    refine toNat_countP_set hi hs.length_lt _ hs.successful ?_
    rw [r.step_successfulRequests]
    by_cases h : r.pc.rank = 2 <;> cases hsc : r.success <;>
      simp (disch := omega) [h, hsc, Recorder.step_rank_of_lt, Recorder.step_le_rank_iff]
  case failed =>
    refine toNat_countP_set hi hs.length_lt _ hs.failed ?_
    rw [r.step_failedRequests]
    by_cases h : r.pc.rank = 2 <;> cases hsc : r.success <;>
      simp (disch := omega) [h, hsc, Recorder.step_rank_of_lt, Recorder.step_le_rank_iff]
  case min_current =>
    intro x hx c hc
    rcases List.mem_or_eq_of_mem_set hx with hx | rfl
    · have := hs.min_current x hx c hc
      simp only [U64.le_iff, U64.lt_iff] at this ⊢
      omega
    · obtain ⟨rfl, hlt⟩ := r.step_casMin s.metrics sp hc
      exact ⟨by simpa using hlt, hmin_le⟩
  case min_left =>
    intro x hx h5
    rcases List.mem_or_eq_of_mem_set hx with hx | rfl
    · have := hs.min_left x hx h5
      simp only [U64.le_iff] at this ⊢
      omega
    · by_cases h5' : 5 ≤ r.pc.rank
      · have := hs.min_left r hr h5'
        simp only [U64.le_iff, Recorder.step_latencyMicros] at this ⊢
        omega
      · simpa using r.step_min_le s.metrics sp (by omega) h5
  case min_mem =>
    rw [hlats]
    rcases r.step_minLatencyMicros s.metrics sp with h | ⟨h, -⟩ <;> rw [h]
    · exact hs.min_mem
    · exact .inr (List.mem_map_of_mem _ hr)
  case max_current =>
    intro x hx c hc
    rcases List.mem_or_eq_of_mem_set hx with hx | rfl
    · have := hs.max_current x hx c hc
      simp only [U64.le_iff, U64.lt_iff] at this ⊢
      omega
    · obtain ⟨rfl, hlt⟩ := r.step_casMax s.metrics sp hc
      exact ⟨by simpa using hlt, hmax_ge⟩
  case max_left =>
    intro x hx hd
    rcases List.mem_or_eq_of_mem_set hx with hx | rfl
    · have := hs.max_left x hx hd
      simp only [U64.le_iff] at this ⊢
      omega
    · by_cases hd' : r.pc = .done
      · have := hs.max_left r hr hd'
        simp only [U64.le_iff, Recorder.step_latencyMicros] at this ⊢
        omega
      · simpa using r.step_le_max s.metrics sp hd' hd
  case max_mem =>
    rw [hlats]
    rcases r.step_maxLatencyMicros s.metrics sp with h | ⟨h, -⟩ <;> rw [h]
    · exact hs.max_mem
    · exact .inr (List.mem_map_of_mem _ hr)

theorem inv_run {s : Recording} (hs : Inv s) (sched : List (Nat × Bool)) : Inv (s.run sched) := by
  induction sched generalizing s with
  | nil => exact hs
  | cons a sched ih => exact ih (inv_step hs a.1 a.2)

end Recording

/-! ## Once every call has returned -/

namespace Recording

open MetricsCollector

/-- A state of a run where every call has returned, `calls` being their arguments: the
snapshot counts every call, every success and every failure, and holds the least and the
greatest latency. -/
theorem Inv.getSnapshot_of_done {s : Recording} (hs : Inv s) {calls : List (UInt64 × Bool)}
    (hargs : s.calls.map (fun r => (r.latencyMicros, r.success)) = calls)
    (hlat : ∀ c ∈ calls, c.1 < u64Max) (hdone : ∀ r ∈ s.calls, r.pc = .done) :
    let snap := s.metrics.getSnapshot
    snap.totalRequests.toNat = calls.length ∧
      snap.successfulRequests.toNat = calls.countP (·.2) ∧
      snap.failedRequests.toNat = calls.countP (!·.2) ∧
      snap.minLatencyMicros = ((calls.map (·.1)).min?).getD 0 ∧
      snap.maxLatencyMicros = ((calls.map (·.1)).max?).getD 0 := by
  have hlats : s.calls.map (·.latencyMicros) = calls.map (·.1) := by
    rw [← hargs, List.map_map]; rfl
  have hcount (q : Bool → Bool) (k : Nat) (hk : k ≤ 7) :
      (s.calls.countP fun r => q r.success && k ≤ r.pc.rank) = calls.countP (q ·.2) := by
    rw [← hargs, List.countP_map]
    exact List.countP_congr fun r hr => by simp [hdone r hr, RecordPc.rank, hk]
  have hlt : ∀ l ∈ calls.map (·.1), l.toNat < 2 ^ 64 - 1 := fun l hl => by
    obtain ⟨c, hc, rfl⟩ := List.mem_map.mp hl
    simpa using hlat c hc
  have hmin_le : ∀ l ∈ calls.map (·.1), s.metrics.minLatencyMicros ≤ l := by
    rw [← hlats]
    intro l hl
    obtain ⟨r, hr, rfl⟩ := List.mem_map.mp hl
    exact hs.min_left r hr (by simp [hdone r hr, RecordPc.rank])
  have hle_max : ∀ l ∈ calls.map (·.1), l ≤ s.metrics.maxLatencyMicros := by
    rw [← hlats]
    intro l hl
    obtain ⟨r, hr, rfl⟩ := List.mem_map.mp hl
    exact hs.max_left r hr (hdone r hr)
  refine ⟨?total, ?successful, ?failed, ?min, ?max⟩
  case total => simpa using hs.total.trans (hcount (fun _ => true) 1 (by omega))
  case successful => exact hs.successful.trans (hcount id 3 (by omega))
  case failed => exact hs.failed.trans (hcount (!·) 3 (by omega))
  case min =>
    rcases hs.min_mem with h | h
    · have hnil : calls.map (·.1) = [] := List.eq_nil_iff_forall_not_mem.mpr fun l hl => by
        have := hmin_le l hl
        simp only [h, U64.le_iff, toNat_u64Max] at this
        exact absurd (hlt l hl) (by omega)
      simp [getSnapshot, h, hnil]
    · rw [hlats] at h
      have hne : s.metrics.minLatencyMicros ≠ u64Max := by
        rw [U64.ne_iff, toNat_u64Max]; exact Nat.ne_of_lt (hlt _ h)
      rw [U64.min?_eq_some_iff.mpr ⟨h, hmin_le⟩]
      simp [getSnapshot, hne]
  case max =>
    by_cases hnil : calls.map (·.1) = []
    · have := hs.max_mem
      rw [hlats, hnil] at this
      simpa [getSnapshot, hnil] using this
    · have hmem : s.metrics.maxLatencyMicros ∈ calls.map (·.1) := by
        rcases hs.max_mem with h | h
        · obtain ⟨l, hl⟩ := List.exists_mem_of_ne_nil _ hnil
          have hl0 : l = 0 := by
            have := hle_max l hl
            rw [h, U64.le_iff, UInt64.toNat_zero] at this
            exact U64.eq_iff.mpr (by simpa using this)
          rw [h, ← hl0]; exact hl
        · rwa [← hlats]
      rw [U64.max?_eq_some_iff.mpr ⟨hmem, hle_max⟩]
      rfl

end Recording

open Recording in
/-- Whatever the interleaving and the spurious failures, once every call has returned the
snapshot counts every call, every success and every failure, and holds the least and the
greatest latency. -/
theorem getSnapshot_of_all_returned (calls : List (UInt64 × Bool)) (sched : List (Nat × Bool))
    (hN : calls.length < 2 ^ 64) (hlat : ∀ c ∈ calls, c.1 < u64Max)
    (hdone : ∀ r ∈ ((start calls).run sched).calls, r.pc = .done) :
    let snap := ((start calls).run sched).metrics.getSnapshot
    snap.totalRequests.toNat = calls.length ∧
      snap.successfulRequests.toNat = calls.countP (·.2) ∧
      snap.failedRequests.toNat = calls.countP (!·.2) ∧
      snap.minLatencyMicros = ((calls.map (·.1)).min?).getD 0 ∧
      snap.maxLatencyMicros = ((calls.map (·.1)).max?).getD 0 :=
  (inv_run (inv_start hN) sched).getSnapshot_of_done
    (by rw [run_args]; simp [start, Function.comp_def]) hlat hdone

open Recording in
/-- Two calls run statement by statement side by side. The second call's first exchange fails
spuriously and its second lowers the minimum to 3; the first call's exchange then fails and
its loop ends, as 5 does not beat 3. On the maximum the first call wins and the second loses. -/
theorem getSnapshot_of_all_returned_interleaved :
    let calls : List (UInt64 × Bool) := [(5, true), (3, false)]
    let sched := [(0, false), (1, false), (0, false), (1, false), (0, false), (1, false),
      (0, false), (1, false), (1, true), (1, false), (0, false), (0, false), (1, false),
      (0, false), (1, false)]
    let snap := ((start calls).run sched).metrics.getSnapshot
    calls.length < 2 ^ 64 ∧ (∀ c ∈ calls, c.1 < u64Max) ∧
      (∀ r ∈ ((start calls).run sched).calls, r.pc = .done) ∧
      snap.totalRequests.toNat = calls.length ∧
      snap.successfulRequests.toNat = calls.countP (·.2) ∧
      snap.failedRequests.toNat = calls.countP (!·.2) ∧
      snap.minLatencyMicros = ((calls.map (·.1)).min?).getD 0 ∧
      snap.maxLatencyMicros = ((calls.map (·.1)).max?).getD 0 := by
  intro calls sched snap
  have hN : calls.length < 2 ^ 64 := by decide
  have hlat : ∀ c ∈ calls, c.1 < u64Max := by decide
  have hdone : ∀ r ∈ ((start calls).run sched).calls, r.pc = .done := by decide
  exact ⟨hN, hlat, hdone, getSnapshot_of_all_returned calls sched hN hlat hdone⟩

/-! ## The calls refine `record_request` made one after the other -/

namespace Recording

/-- The latencies added by the calls past their `fetch_add` on `total_latency_micros`. -/
def latencyAdded (calls : List Recorder) : Nat :=
  (calls.map fun r => if 2 ≤ r.pc.rank then r.latencyMicros.toNat else 0).sum

/-- `total_latency_micros` holds, modulo `2^64`, the latencies added so far. -/
def LatencyInv (s : Recording) : Prop :=
  s.metrics.totalLatencyMicros.toNat = latencyAdded s.calls % 2 ^ 64

theorem latencyInv_start (calls : List (UInt64 × Bool)) : LatencyInv (start calls) := by
  simp [LatencyInv, latencyAdded, start, MetricsCollector.new, RecordPc.rank, Function.comp_def]

theorem latencyInv_step {s : Recording} (hs : LatencyInv s) (i : Nat) (sp : Bool) :
    LatencyInv (s.step i sp) := by
  rcases hi : s.calls[i]? with _ | r
  · rwa [step_of_getElem?_none hi]
  rw [step_of_getElem? hi]
  have hsum := sum_map_set_add (b := (r.step s.metrics sp).2)
    (fun r : Recorder => if 2 ≤ r.pc.rank then r.latencyMicros.toNat else 0) hi
  unfold LatencyInv latencyAdded at *
  beta_reduce at hsum
  rw [Recorder.step_latencyMicros] at hsum
  rw [r.step_totalLatencyMicros]
  by_cases h : r.pc.rank = 1
  · rw [Recorder.step_rank_of_lt _ _ _ (by omega), h, if_neg (by decide), if_pos (by decide)]
      at hsum
    rw [if_pos h, UInt64.toNat_add, U64.size_eq, hs, Nat.mod_add_mod, ← hsum, Nat.add_zero]
  · simp only [Recorder.step_le_rank_iff s.metrics r sp (k := 2) (by omega) (by omega)] at hsum
    rw [if_neg h, hs, Nat.add_right_cancel hsum]

theorem latencyInv_run {s : Recording} (hs : LatencyInv s) (sched : List (Nat × Bool)) :
    LatencyInv (s.run sched) := by
  induction sched generalizing s with
  | nil => exact hs
  | cons a sched ih => exact ih (latencyInv_step hs a.1 a.2)

/-- Once every call has returned, a count over the calls' progress and outcome is a count over
their outcomes. -/
theorem countP_of_done {calls : List Recorder} (hdone : ∀ r ∈ calls, r.pc = .done)
    (q : Bool → Bool) {k : Nat} (hk : k ≤ 7) :
    (calls.countP fun r => q r.success && k ≤ r.pc.rank) = calls.countP (q ·.success) :=
  List.countP_congr fun r hr => by simp [hdone r hr, RecordPc.rank, hk]

/-- A state of a run where every call has returned, `calls` being their arguments, holds what
recording the calls on a fresh collector leaves. -/
theorem Inv.recorded_of_done {s : Recording} (hs : Inv s) (hl : LatencyInv s)
    {calls : List (UInt64 × Bool)}
    (hargs : s.calls.map (fun r => (r.latencyMicros, r.success)) = calls)
    (hdone : ∀ r ∈ s.calls, r.pc = .done) :
    MetricsCollector.Recorded MetricsCollector.new calls s.metrics := by
  have hlats : s.calls.map (·.latencyMicros) = calls.map (·.1) := by
    rw [← hargs, List.map_map]; rfl
  have hlen : calls.length < 2 ^ 64 := by rw [← hargs, List.length_map]; exact hs.length_lt
  have hcount (q : Bool → Bool) {k : Nat} (hk : k ≤ 7) :
      (s.calls.countP fun r => q r.success && k ≤ r.pc.rank) = calls.countP (q ·.2) := by
    rw [countP_of_done hdone q hk, ← hargs, List.countP_map]; rfl
  have hmod {n : Nat} (hn : n ≤ calls.length) : n = ((0 : UInt64).toNat + n) % 2 ^ 64 := by
    rw [UInt64.toNat_zero, Nat.zero_add, Nat.mod_eq_of_lt (by omega)]
  have hleft (l) (hl : l ∈ calls.map (·.1)) : ∃ r ∈ s.calls, r.latencyMicros = l ∧ r.pc = .done := by
    rw [← hlats] at hl
    obtain ⟨r, hr, rfl⟩ := List.mem_map.mp hl
    exact ⟨r, hr, rfl, hdone r hr⟩
  refine ⟨?total, ?successful, ?failed, ?latency, ?min, ?max⟩
  case total =>
    rw [hs.total.trans ((hcount (fun _ => true) (k := 1) (by omega)).trans
      (List.countP_eq_length.mpr fun _ _ => rfl))]
    exact hmod (Nat.le_refl _)
  case successful =>
    rw [hs.successful.trans (hcount id (k := 3) (by omega))]
    exact hmod (List.countP_le_length _)
  case failed =>
    rw [hs.failed.trans (hcount (!·) (k := 3) (by omega))]
    exact hmod (List.countP_le_length _)
  case latency =>
    have hsum : latencyAdded s.calls = (calls.map (·.1.toNat)).sum := by
      rw [latencyAdded, List.map_congr_left (g := fun r : Recorder => r.latencyMicros.toNat)
        fun r hr => by simp [hdone r hr, RecordPc.rank], ← hargs, List.map_map]
      rfl
    rw [hl, hsum]
    simp [MetricsCollector.new]
  case min =>
    refine U64.min?_eq_some_iff.mpr ⟨List.mem_cons.mpr (hlats ▸ hs.min_mem), fun b hb => ?_⟩
    rcases List.mem_cons.mp hb with rfl | hb
    · have : s.metrics.minLatencyMicros.toNat < 2 ^ 64 := UInt64.toNat_lt _
      simp only [MetricsCollector.new, U64.le_iff, toNat_u64Max]
      omega
    · obtain ⟨r, hr, rfl, hd⟩ := hleft b hb
      exact hs.min_left r hr (by simp [hd, RecordPc.rank])
  case max =>
    refine U64.max?_eq_some_iff.mpr ⟨List.mem_cons.mpr (hlats ▸ hs.max_mem), fun b hb => ?_⟩
    rcases List.mem_cons.mp hb with rfl | hb
    · exact U64.le_iff.mpr (Nat.zero_le _)
    · obtain ⟨r, hr, rfl, hd⟩ := hleft b hb
      exact hs.max_left r hr hd

end Recording

open Recording in
/-- Whatever the interleaving and the spurious failures, once every call has returned the
collector holds what `record_request` made for each call in turn, without interference, leaves,
in whichever order the calls are taken. -/
theorem all_returned_eq_sequential (calls order : List (UInt64 × Bool))
    (sched : List (Nat × Bool)) (hN : calls.length < 2 ^ 64) (horder : order.Perm calls)
    (hdone : ∀ r ∈ ((start calls).run sched).calls, r.pc = .done) :
    ((start calls).run sched).metrics =
      order.foldl (fun m c => m.recordRequest c.1 c.2) MetricsCollector.new :=
  ((inv_run (inv_start hN) sched).recorded_of_done
    (latencyInv_run (latencyInv_start calls) sched)
    (by rw [run_args]; simp [start, Function.comp_def]) hdone).eq
    ((MetricsCollector.recorded_foldl order _).perm horder.symm)

open Recording in
/-- Two calls run side by side: the first call's first exchange on the minimum fails spuriously
and its second fails for real, as the other call has lowered the minimum to 3 in between. The
collector is what the calls leave made one after the other, the second first. -/
theorem all_returned_eq_sequential_swapped :
    let calls : List (UInt64 × Bool) := [(5, true), (3, false)]
    let order : List (UInt64 × Bool) := [(3, false), (5, true)]
    let sched := [(1, false), (1, false), (1, false), (0, false), (0, false), (0, false),
      (0, false), (1, false), (0, true), (1, false), (0, false), (0, false), (1, false),
      (0, false), (1, false)]
    calls.length < 2 ^ 64 ∧ order.Perm calls ∧
      (∀ r ∈ ((start calls).run sched).calls, r.pc = .done) ∧
      ((start calls).run sched).metrics =
        order.foldl (fun m c => m.recordRequest c.1 c.2) MetricsCollector.new := by
  intro calls order sched
  have hN : calls.length < 2 ^ 64 := by decide
  have hp : order.Perm calls := List.Perm.swap _ _ _
  have hdone : ∀ r ∈ ((start calls).run sched).calls, r.pc = .done := by decide
  exact ⟨hN, hp, hdone, all_returned_eq_sequential calls order sched hN hp hdone⟩

/-! ## A snapshot taken while calls run -/

/-- Where a `get_snapshot` call is: the values it has loaded so far, in the order of the code;
once done, the six values, of which it returns `getSnapshot`. -/
inductive SnapshotPc
  | loadTotal
  | loadSuccessful (totalRequests : UInt64)
  | loadFailed (totalRequests successfulRequests : UInt64)
  | loadLatency (totalRequests successfulRequests failedRequests : UInt64)
  | loadMin (totalRequests successfulRequests failedRequests totalLatencyMicros : UInt64)
  | loadMax (totalRequests successfulRequests failedRequests totalLatencyMicros
      minLatencyMicros : UInt64)
  | done (loaded : MetricsCollector)
  deriving DecidableEq

/-- The next load of `get_snapshot` on the collector as it is now. -/
def SnapshotPc.step (m : MetricsCollector) : SnapshotPc → SnapshotPc
  | loadTotal => loadSuccessful m.totalRequests
  | loadSuccessful t => loadFailed t m.successfulRequests
  | loadFailed t s => loadLatency t s m.failedRequests
  | loadLatency t s f => loadMin t s f m.totalLatencyMicros
  | loadMin t s f l => loadMax t s f l m.minLatencyMicros
  | loadMax t s f l mn => done ⟨t, s, f, l, mn, m.maxLatencyMicros⟩
  | done loaded => done loaded

/-- Concurrent calls of `record_request` and one call of `get_snapshot` on one collector. -/
structure Observed where
  recording : Recording
  reader : SnapshotPc

/-- A step of a recorder, with its spurious failure, or the next load of the snapshot. -/
inductive Move
  | record (i : Nat) (spurious : Bool)
  | read

namespace Observed

/-- A fresh collector, the calls `(latency, success)` and the snapshot, none started. -/
def start (calls : List (UInt64 × Bool)) : Observed := ⟨Recording.start calls, .loadTotal⟩

def step (s : Observed) : Move → Observed
  | .record i sp => { s with recording := s.recording.step i sp }
  | .read => { s with reader := s.reader.step s.recording.metrics }

def run (s : Observed) (moves : List Move) : Observed := moves.foldl step s

end Observed

/-- What every state of a run shows of the calls `calls`, each field on its own: no more
requests, successes or failures than there are calls of each kind, and a minimum and a maximum
that are their initial values or latencies of calls. -/
structure Bounded (calls : List (UInt64 × Bool)) (m : MetricsCollector) : Prop where
  total : m.totalRequests.toNat ≤ calls.length
  successful : m.successfulRequests.toNat ≤ calls.countP (·.2)
  failed : m.failedRequests.toNat ≤ calls.countP (!·.2)
  min : m.minLatencyMicros = u64Max ∨ m.minLatencyMicros ∈ calls.map (·.1)
  max : m.maxLatencyMicros = 0 ∨ m.maxLatencyMicros ∈ calls.map (·.1)

theorem Recording.Inv.bounded {s : Recording} (hs : s.Inv) {calls : List (UInt64 × Bool)}
    (hargs : s.calls.map (fun r => (r.latencyMicros, r.success)) = calls) :
    Bounded calls s.metrics := by
  have hlats : s.calls.map (·.latencyMicros) = calls.map (·.1) := by
    rw [← hargs, List.map_map]; rfl
  have hcount (q : Bool → Bool) (k : Nat) :
      (s.calls.countP fun r => q r.success && k ≤ r.pc.rank) ≤ calls.countP (q ·.2) := by
    rw [← hargs, List.countP_map]
    exact List.countP_mono_left fun r _ h => by simp only [Bool.and_eq_true] at h; exact h.1
  refine ⟨?_, hs.successful ▸ hcount id 3, hs.failed ▸ hcount (!·) 3, hlats ▸ hs.min_mem,
    hlats ▸ hs.max_mem⟩
  rw [hs.total, ← hargs, List.length_map]
  exact List.countP_le_length _

/-- The values the snapshot has loaded are the fields of a bounded collector: each was bounded
when it was loaded, and the bounds hold field by field. -/
def ReaderOk (calls : List (UInt64 × Bool)) : SnapshotPc → Prop
  | .loadTotal => True
  | .loadSuccessful t => ∃ m, Bounded calls m ∧ m.totalRequests = t
  | .loadFailed t s => ∃ m, Bounded calls m ∧ m.totalRequests = t ∧ m.successfulRequests = s
  | .loadLatency t s f => ∃ m, Bounded calls m ∧ m.totalRequests = t ∧
      m.successfulRequests = s ∧ m.failedRequests = f
  | .loadMin t s f _ => ∃ m, Bounded calls m ∧ m.totalRequests = t ∧
      m.successfulRequests = s ∧ m.failedRequests = f
  | .loadMax t s f _ mn => ∃ m, Bounded calls m ∧ m.totalRequests = t ∧
      m.successfulRequests = s ∧ m.failedRequests = f ∧ m.minLatencyMicros = mn
  | .done loaded => Bounded calls loaded

/-- A load from a bounded collector keeps the loaded values bounded: the witness takes the new
field from the collector loaded, the others from the old witness. -/
theorem readerOk_step {calls : List (UInt64 × Bool)} {m : MetricsCollector}
    (hm : Bounded calls m) {pc : SnapshotPc} (h : ReaderOk calls pc) :
    ReaderOk calls (pc.step m) := by
  cases pc with
  | loadTotal => exact ⟨m, hm, rfl⟩
  | loadSuccessful t =>
    obtain ⟨m', h', rfl⟩ := h
    exact ⟨{ m' with successfulRequests := m.successfulRequests },
      ⟨h'.total, hm.successful, h'.failed, h'.min, h'.max⟩, rfl, rfl⟩
  | loadFailed t s =>
    obtain ⟨m', h', rfl, rfl⟩ := h
    exact ⟨{ m' with failedRequests := m.failedRequests },
      ⟨h'.total, h'.successful, hm.failed, h'.min, h'.max⟩, rfl, rfl, rfl⟩
  | loadLatency t s f => exact h
  | loadMin t s f l =>
    obtain ⟨m', h', rfl, rfl, rfl⟩ := h
    exact ⟨{ m' with minLatencyMicros := m.minLatencyMicros },
      ⟨h'.total, h'.successful, h'.failed, hm.min, h'.max⟩, rfl, rfl, rfl, rfl⟩
  | loadMax t s f l mn =>
    obtain ⟨m', h', rfl, rfl, rfl, rfl⟩ := h
    exact ⟨h'.total, h'.successful, h'.failed, h'.min, hm.max⟩
  | done loaded => exact h

namespace Observed

/-- What every state of a run keeps: the recorders' invariant and arguments, and loaded values
that are bounded. -/
structure Inv (calls : List (UInt64 × Bool)) (s : Observed) : Prop where
  recording : s.recording.Inv
  args : s.recording.calls.map (fun r => (r.latencyMicros, r.success)) = calls
  reader : ReaderOk calls s.reader

theorem inv_start {calls : List (UInt64 × Bool)} (hN : calls.length < 2 ^ 64) :
    Inv calls (start calls) :=
  ⟨Recording.inv_start hN, by simp [start, Recording.start, Function.comp_def], trivial⟩

theorem inv_step {calls : List (UInt64 × Bool)} {s : Observed} (hs : Inv calls s) :
    (mv : Move) → Inv calls (s.step mv)
  | .record i sp => ⟨Recording.inv_step hs.recording i sp,
      (Recording.run_args s.recording [(i, sp)]).trans hs.args, hs.reader⟩
  | .read => ⟨hs.recording, hs.args, readerOk_step (hs.recording.bounded hs.args) hs.reader⟩

theorem inv_run {calls : List (UInt64 × Bool)} {s : Observed} (hs : Inv calls s)
    (moves : List Move) : Inv calls (s.run moves) := by
  induction moves generalizing s with
  | nil => exact hs
  | cons mv moves ih => exact ih (inv_step hs mv)

end Observed

/-- Whatever the interleaving of the recorders with the six loads of `get_snapshot`, the
snapshot reports no more requests, successes or failures than there are calls of each kind, and
a least and a greatest latency that are `0` or the latency of one of the calls. The fields are
loaded at different instants, so they need not agree with one another. -/
theorem snapshot_while_recording (calls : List (UInt64 × Bool)) (moves : List Move)
    (hN : calls.length < 2 ^ 64) {loaded : MetricsCollector}
    (hdone : ((Observed.start calls).run moves).reader = .done loaded) :
    let snap := loaded.getSnapshot
    snap.totalRequests.toNat ≤ calls.length ∧
      snap.successfulRequests.toNat ≤ calls.countP (·.2) ∧
      snap.failedRequests.toNat ≤ calls.countP (!·.2) ∧
      (snap.minLatencyMicros = 0 ∨ snap.minLatencyMicros ∈ calls.map (·.1)) ∧
      (snap.maxLatencyMicros = 0 ∨ snap.maxLatencyMicros ∈ calls.map (·.1)) := by
  have hm := (Observed.inv_run (Observed.inv_start hN) moves).reader
  rw [hdone] at hm
  refine ⟨hm.total, hm.successful, hm.failed, ?_, hm.max⟩
  simp only [MetricsCollector.getSnapshot]
  split_ifs with h
  · exact .inl rfl
  · exact .inr (hm.min.resolve_left h)

/-- The snapshot loads `total_requests` before the first call starts and its other fields after
that call has returned: it reports one success out of no request, within the bounds. -/
theorem snapshot_while_recording_torn :
    let calls : List (UInt64 × Bool) := [(5, true), (3, false)]
    let moves := [Move.read] ++ List.replicate 7 (Move.record 0 false) ++
      List.replicate 5 Move.read
    let snap := MetricsCollector.getSnapshot ⟨0, 1, 0, 5, 5, 5⟩
    calls.length < 2 ^ 64 ∧ ((Observed.start calls).run moves).reader = .done ⟨0, 1, 0, 5, 5, 5⟩ ∧
      snap.totalRequests.toNat ≤ calls.length ∧
      snap.successfulRequests.toNat ≤ calls.countP (·.2) ∧
      snap.failedRequests.toNat ≤ calls.countP (!·.2) ∧
      (snap.minLatencyMicros = 0 ∨ snap.minLatencyMicros ∈ calls.map (·.1)) ∧
      (snap.maxLatencyMicros = 0 ∨ snap.maxLatencyMicros ∈ calls.map (·.1)) := by
  intro calls moves snap
  have hN : calls.length < 2 ^ 64 := by decide
  have hdone : ((Observed.start calls).run moves).reader = .done ⟨0, 1, 0, 5, 5, 5⟩ := by decide
  exact ⟨hN, hdone, snapshot_while_recording calls moves hN hdone⟩

end RustCore.GeoSidecar
