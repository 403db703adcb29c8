import RustCore.GeoSidecar.Routing
import RustCore.Word

/-!
# The routing engine behind its `RwLock`

The sidecar keeps one `RoutingEngine` in an `Arc<RwLock<_>>` that every connection task shares.
`process_request` answers a route with `routing_engine.read().route_request(..)` and a table
update with `routing_engine.write().update_replicas(..)`; each guard lives until the end of its
statement. A task here is one such request. Under the write guard `update_replicas` makes one
map operation a step: the two `clear`s, then for each replica the `insert` into `replicas` and
the push of its id into `zone_replicas`. Under a read guard `route_request` reads the table in
one step. A `read()` or `write()` that would block is a step that changes nothing, and
`Sidecar.run` interleaves the steps of the tasks in the order of a schedule.

1. `Inv` ties the lock's counts to the guards the tasks hold and the writer's engine to the
   position of its loop. `Inv.set` says what a step must do to keep it; `inv_step` checks each
   step against it, and `inv_run` extends it to every run.
2. The lock is exclusive along every run: no read guard is held while the write guard is, and
   at most one task holds the write guard (`lock_exclusive`).
3. While no task holds the write guard, the engine is a whole table: the one the sidecar started
   with, or the one a finished `update_replicas` left. Every route is answered from such a
   table, never from one that an update has half rebuilt; with the exclusion of the lock this
   is `route_reads_whole_table`.
-/

namespace RustCore.GeoSidecar

open RoutingEngine

/-- A request a connection task makes on the shared engine. -/
inductive Op
  | route (request : RoutingRequest)
  | update (replicas : List ReplicaInfo)

/-- Where a task is, between two steps. -/
inductive TaskPc
  | start
  /-- Holds a read guard; `route_request` has not run. -/
  | reading
  /-- Holds a read guard; `route_request` has returned `result`. -/
  | routed (result : Except String RoutingResponse)
  | routeDone (result : Except String RoutingResponse)
  /-- Holds the write guard; neither map is cleared. -/
  | clearReplicas
  | clearZones
  /-- Holds the write guard; the loop of `update_replicas` has `rest` to insert. -/
  | insert (rest : List ReplicaInfo)
  /-- Holds the write guard; `replica` is in `replicas`, its id not yet in its zone. -/
  | push (replica : ReplicaInfo) (rest : List ReplicaInfo)
  | updateDone

namespace TaskPc

/-- The task holds a read guard. -/
def holdsRead : TaskPc → Bool
  | reading | routed _ => true
  | _ => false

/-- The task holds the write guard. -/
def holdsWrite : TaskPc → Bool
  | clearReplicas | clearZones | insert _ | push _ _ => true
  | _ => false

theorem holdsRead_eq_false {pc : TaskPc} (h : pc.holdsWrite = true) : pc.holdsRead = false := by
  cases pc <;> first | rfl | cases h

theorem not_routed {pc : TaskPc} (h : pc.holdsWrite = true) (r : Except String RoutingResponse) :
    ¬(pc = .routed r ∨ pc = .routeDone r) := by
  cases pc <;> simp_all [holdsWrite]

end TaskPc

/-- A request in flight. -/
structure Task where
  op : Op
  pc : TaskPc

/-- The `RwLock<RoutingEngine>`: the engine, the number of read guards, and whether the write
guard is held. -/
structure SharedEngine where
  engine : RoutingEngine
  readers : Nat
  writer : Bool

section Step

variable (geoResolver : GeoResolver)
  (iterOrder : DashMap String ReplicaInfo → List ((_ : String) × ReplicaInfo))

/-- The next step of a task. `elapsedMicros` is the reading of `start_time.elapsed()` should
the step run `route_request`. -/
def Task.step (s : SharedEngine) (t : Task) (elapsedMicros : UInt64) : SharedEngine × Task :=
  match t.pc, t.op with
  | .start, .route _ =>
    if s.writer then (s, t) else ({ s with readers := s.readers + 1 }, { t with pc := .reading })
  | .start, .update _ =>
    if s.writer ∨ s.readers ≠ 0 then (s, t)
    else ({ s with writer := true }, { t with pc := .clearReplicas })
  | .reading, .route request =>
    (s, { t with pc := .routed (s.engine.routeRequest (iterOrder s.engine.replicas) request
      geoResolver elapsedMicros) })
  | .routed result, _ => ({ s with readers := s.readers - 1 }, { t with pc := .routeDone result })
  | .clearReplicas, _ =>
    ({ s with engine := { s.engine with replicas := ∅ } }, { t with pc := .clearZones })
  | .clearZones, .update replicas =>
    ({ s with engine := { s.engine with zoneReplicas := ∅ } }, { t with pc := .insert replicas })
  | .insert (replica :: rest), _ =>
    ({ s with engine := { s.engine with
        replicas := s.engine.replicas.insert replica.nodeId replica } },
      { t with pc := .push replica rest })
  | .push replica rest, _ =>
    let zone := replica.zone
    ({ s with engine := { s.engine with
        zoneReplicas := s.engine.zoneReplicas.insert zone
          ((s.engine.zoneReplicas.lookup zone).getD [] ++ [replica.nodeId]) } },
      { t with pc := .insert rest })
  | .insert [], _ => ({ s with writer := false }, { t with pc := .updateDone })
  | _, _ => (s, t)

/-- The shared engine and the requests in flight on it. -/
structure Sidecar where
  shared : SharedEngine
  tasks : List Task

namespace Sidecar

/-- The engine `engine`, no guard held, and the requests `ops`, none started. -/
def init (engine : RoutingEngine) (ops : List Op) : Sidecar :=
  ⟨⟨engine, 0, false⟩, ops.map (⟨·, .start⟩)⟩

/-- Task `i` makes its next step. -/
def step (s : Sidecar) (i : Nat) (elapsedMicros : UInt64) : Sidecar :=
  match s.tasks[i]? with
  | some t =>
    let p := t.step geoResolver iterOrder s.shared elapsedMicros
    ⟨p.1, s.tasks.set i p.2⟩
  | none => s

/-- A schedule: the task that moves, and the reading its step would take. -/
def run (s : Sidecar) (sched : List (Nat × UInt64)) : Sidecar :=
  sched.foldl (fun s a => s.step geoResolver iterOrder a.1 a.2) s

theorem step_of_getElem? {s : Sidecar} {i : Nat} {t : Task} (hi : s.tasks[i]? = some t)
    (elapsedMicros : UInt64) :
    s.step geoResolver iterOrder i elapsedMicros =
      ⟨(t.step geoResolver iterOrder s.shared elapsedMicros).1,
        s.tasks.set i (t.step geoResolver iterOrder s.shared elapsedMicros).2⟩ := by
  simp only [step, hi]

theorem step_of_getElem?_none {s : Sidecar} {i : Nat} (hi : s.tasks[i]? = none)
    (elapsedMicros : UInt64) : s.step geoResolver iterOrder i elapsedMicros = s := by
  simp only [step, hi]

end Sidecar

end Step

/-! ## The invariant of a run -/

namespace Sidecar

section Inv

variable (geoResolver : GeoResolver)
  (iterOrder : DashMap String ReplicaInfo → List ((_ : String) × ReplicaInfo)) (e₀ : RoutingEngine)

/-- A whole table: the engine the sidecar started with, or the table a finished
`update_replicas` left. -/
def Whole (tasks : List Task) (e : RoutingEngine) : Prop :=
  e = e₀ ∨ ∃ (j : Nat) (u : Task) (L : List ReplicaInfo), tasks[j]? = some u ∧ u.op = .update L ∧ u.pc = .updateDone ∧
    e = L.foldl insertReplica new

/-- The engine as `update_replicas L` leaves it at each step under the write guard. -/
def WriterPhase (L : List ReplicaInfo) (e : RoutingEngine) : TaskPc → Prop
  | .clearZones => e.replicas = ∅
  | .insert rest => ∃ pre, pre ++ rest = L ∧ e = pre.foldl insertReplica new
  | .push replica rest => ∃ pre, pre ++ replica :: rest = L ∧
      e = { pre.foldl insertReplica new with
        replicas := (pre.foldl insertReplica new).replicas.insert replica.nodeId replica }
  | _ => True

/-- What every state of a run keeps: the guards held match the lock, the lock is exclusive,
without a writer the engine is a whole table, the writer's table is the one its loop has built
so far, and every route was answered from a whole table. -/
structure Inv (s : Sidecar) : Prop where
  readers_eq : s.shared.readers = s.tasks.countP (·.pc.holdsRead)
  writers_eq : s.tasks.countP (·.pc.holdsWrite) = if s.shared.writer then 1 else 0
  exclusive : s.shared.writer = true → s.shared.readers = 0
  whole : s.shared.writer = false → Whole e₀ s.tasks s.shared.engine
  phase : ∀ (j : Nat) (t : Task), s.tasks[j]? = some t → t.pc.holdsWrite = true →
    ∃ L, t.op = .update L ∧ WriterPhase L s.shared.engine t.pc
  routed : ∀ (j : Nat) (t : Task) (r : Except String RoutingResponse), s.tasks[j]? = some t → (t.pc = .routed r ∨ t.pc = .routeDone r) →
    ∃ request, t.op = .route request ∧ ∃ e, Whole e₀ s.tasks e ∧
      ∃ elapsedMicros, r = e.routeRequest (iterOrder e.replicas) request geoResolver elapsedMicros

variable {geoResolver iterOrder e₀}

/-- A finished update stays finished when another task moves. -/
theorem Whole.set {tasks : List Task} {i : Nat} {t t' : Task} {e : RoutingEngine}
    (hi : tasks[i]? = some t) (hdone : t.pc = .updateDone → t' = t) (h : Whole e₀ tasks e) :
    Whole e₀ (tasks.set i t') e := by
  rcases h with rfl | ⟨j, u, L, hj, hu, hd, rfl⟩
  · exact .inl rfl
  refine .inr ⟨j, u, L, ?_, hu, hd, rfl⟩
  by_cases hij : i = j
  · subst hij
    rw [hi] at hj
    cases hj
    rw [hdone hd, List.getElem?_set_self (List.getElem?_eq_some_iff.mp hi).1]
  · rw [List.getElem?_set_ne hij, hj]

section Step

variable {s : Sidecar} (hs : Inv geoResolver iterOrder e₀ s) {i : Nat} {t : Task}
  (hi : s.tasks[i]? = some t)
include hs hi

theorem Inv.pos_of_holdsRead (ht : t.pc.holdsRead = true) : 0 < s.shared.readers := by
  rw [hs.readers_eq]
  exact List.countP_pos_iff.mpr ⟨t, List.getElem?_mem hi, ht⟩

theorem Inv.writer_of_holdsWrite (ht : t.pc.holdsWrite = true) : s.shared.writer = true := by
  have h := hs.writers_eq
  have hpos : 0 < s.tasks.countP (·.pc.holdsWrite) :=
    List.countP_pos_iff.mpr ⟨t, List.getElem?_mem hi, ht⟩
  split_ifs at h with hw
  · exact hw
  · omega

/-- The invariant after task `i` moves from `t` to `t'` and the lock to `sh`, from what the step
does to the guards, the engine and the task. -/
theorem Inv.set {t' : Task} {sh : SharedEngine}
    (hr : sh.readers + (if t.pc.holdsRead then 1 else 0) =
      s.shared.readers + (if t'.pc.holdsRead then 1 else 0))
    (hw : (if t.pc.holdsWrite then 1 else 0) + (if sh.writer then 1 else 0) =
      (if t'.pc.holdsWrite then 1 else 0) + (if s.shared.writer then 1 else 0))
    (hx : sh.writer = true → sh.readers = 0)
    (heng : t.pc.holdsWrite = false → sh.engine = s.shared.engine)
    (hdone : t.pc = .updateDone → t' = t)
    (hwhole : sh.writer = false → Whole e₀ (s.tasks.set i t') sh.engine)
    (hphase : t'.pc.holdsWrite = true → ∃ L, t'.op = .update L ∧ WriterPhase L sh.engine t'.pc)
    (hrouted : ∀ r, (t'.pc = .routed r ∨ t'.pc = .routeDone r) → ∃ request,
      t'.op = .route request ∧ ∃ e, Whole e₀ (s.tasks.set i t') e ∧
        ∃ elapsedMicros, r = e.routeRequest (iterOrder e.replicas) request geoResolver elapsedMicros) :
    Inv geoResolver iterOrder e₀ ⟨sh, s.tasks.set i t'⟩ := by
  have cr := countP_set_add (b := t') hi (·.pc.holdsRead)
  have cw := countP_set_add (b := t') hi (·.pc.holdsWrite)
  have hr₀ := hs.readers_eq
  have hw₀ := hs.writers_eq
  have hil := (List.getElem?_eq_some_iff.mp hi).1
  refine ⟨?_, ?_, hx, hwhole, fun j u hj hu => ?_, fun j u r hj hu => ?_⟩
  · dsimp only at cr ⊢; omega
  · dsimp only at cw ⊢; omega
  · by_cases hij : i = j
    · subst hij
      rw [List.getElem?_set_self hil] at hj
      cases hj
      exact hphase hu
    · rw [List.getElem?_set_ne hij] at hj
      obtain ⟨L, hL, hph⟩ := hs.phase j u hj hu
      refine ⟨L, hL, ?_⟩
      cases ht : t.pc.holdsWrite
      · rwa [heng ht]
      · have h2 := two_le_countP hij hi hj (p := (·.pc.holdsWrite)) ht hu ⟨t.op, .start⟩ rfl
        split_ifs at hw₀ <;> omega
  · by_cases hij : i = j
    · subst hij
      rw [List.getElem?_set_self hil] at hj
      cases hj
      exact hrouted r hu
    · rw [List.getElem?_set_ne hij] at hj
      obtain ⟨request, hreq, e, he, el, rfl⟩ := hs.routed j u r hj hu
      exact ⟨request, hreq, e, he.set hi hdone, el, rfl⟩

/-- A step that changes nothing keeps the invariant. -/
theorem Inv.set_self : Inv geoResolver iterOrder e₀ ⟨s.shared, s.tasks.set i t⟩ := by
  rw [set_eq_self_of_getElem? hi]
  exact hs

/-- A step of the writer that keeps the write guard, and moves the engine along the loop of
`update_replicas`. -/
theorem Inv.set_writer {t' : Task} {sh : SharedEngine} (ht : t.pc.holdsWrite = true)
    (ht' : t'.pc.holdsWrite = true) (hop : t'.op = t.op) (hr : sh.readers = s.shared.readers)
    (hw : sh.writer = s.shared.writer)
    (hph : ∀ L, t.op = .update L → WriterPhase L s.shared.engine t.pc →
      WriterPhase L sh.engine t'.pc) :
    Inv geoResolver iterOrder e₀ ⟨sh, s.tasks.set i t'⟩ := by
  have hwt := hs.writer_of_holdsWrite hi ht
  refine hs.set hi ?_ ?_ (fun _ => hr ▸ hs.exclusive hwt) (fun h => absurd ht (by rw [h]; decide))
    (fun h => absurd ht (by rw [h]; decide)) (fun h => absurd hwt (by rw [← hw, h]; decide))
    (fun _ => ?_) (fun r hr => absurd hr (TaskPc.not_routed ht' r))
  · rw [TaskPc.holdsRead_eq_false ht, TaskPc.holdsRead_eq_false ht', hr]
  · rw [ht, ht', hw]
  · obtain ⟨L, hL, hph₀⟩ := hs.phase i t hi ht
    exact ⟨L, hop.trans hL, hph L hL hph₀⟩

end Step

/-- The clears leave the empty engine. -/
theorem clear_eq_new {e : RoutingEngine} (h : e.replicas = ∅) : { e with zoneReplicas := ∅ } = new := by
  cases e
  subst h
  rfl

theorem inv_init (ops : List Op) : Inv geoResolver iterOrder e₀ (Sidecar.init e₀ ops) := by
  have hstart : ∀ (j : Nat) (t : Task), (Sidecar.init e₀ ops).tasks[j]? = some t → t.pc = .start :=
    fun j t hj => by
      obtain ⟨op, -, rfl⟩ := List.mem_map.mp (List.getElem?_mem hj)
      rfl
  refine ⟨?_, ?_, (fun h => by cases h), fun _ => .inl rfl, fun j t hj ht => ?_,
    fun j t r hj ht => ?_⟩
  · simp [Sidecar.init, Function.comp_def, TaskPc.holdsRead]
  · simp [Sidecar.init, TaskPc.holdsWrite]
  · rw [hstart j t hj] at ht; cases ht
  · rw [hstart j t hj] at ht; simp at ht

/-- Every step keeps the invariant. -/
theorem inv_step {s : Sidecar} (hs : Inv geoResolver iterOrder e₀ s) (i : Nat)
    (elapsedMicros : UInt64) :
    Inv geoResolver iterOrder e₀ (s.step geoResolver iterOrder i elapsedMicros) := by
  rcases hi : s.tasks[i]? with _ | ⟨op, pc⟩
  · rwa [Sidecar.step_of_getElem?_none _ _ hi]
  rw [Sidecar.step_of_getElem? _ _ hi]
  have hil := (List.getElem?_eq_some_iff.mp hi).1
  cases pc with
  | start =>
    cases op with
    | route request =>
      simp only [Task.step]
      split_ifs with hw
      · exact hs.set_self hi
      · exact hs.set hi rfl rfl
          (fun h => absurd h hw) (fun _ => rfl) (fun h => by cases h)
          (fun h => (hs.whole h).set hi (fun h => by cases h)) (fun h => by cases h)
          (fun r h => by simp at h)
    | update L =>
      simp only [Task.step]
      split_ifs with hb
      · exact hs.set_self hi
      · simp only [not_or, not_not, Bool.not_eq_true] at hb
        exact hs.set hi rfl (by simp [TaskPc.holdsWrite, hb.1])
          (fun _ => hb.2) (fun _ => rfl) (fun h => by cases h) (fun h => by cases h)
          (fun _ => ⟨L, rfl, trivial⟩) (fun r h => by simp at h)
  | reading =>
    cases op with
    | route request =>
      simp only [Task.step]
      have hpos := hs.pos_of_holdsRead hi rfl
      have hwf : s.shared.writer = false := by
        cases hw : s.shared.writer
        · rfl
        · have := hs.exclusive hw; omega
      refine hs.set hi rfl rfl hs.exclusive
        (fun _ => rfl) (fun h => by cases h) (fun h => (hs.whole h).set hi (fun h => by cases h))
        (fun h => by cases h) (fun r h => ?_)
      rcases h with h | h <;> cases h
      exact ⟨request, rfl, s.shared.engine, (hs.whole hwf).set hi (fun h => by cases h),
        elapsedMicros, rfl⟩
    | update L => exact hs.set_self hi
  | routed r =>
    simp only [Task.step]
    have hpos := hs.pos_of_holdsRead hi rfl
    obtain ⟨request, hreq, e, he, el, hr⟩ := hs.routed i _ r hi (.inl rfl)
    refine hs.set hi (by simp [TaskPc.holdsRead]; omega) rfl
      (fun h => by have := hs.exclusive h; omega) (fun _ => rfl) (fun h => by cases h)
      (fun h => (hs.whole h).set hi (fun h => by cases h)) (fun h => by cases h) (fun r' h => ?_)
    rcases h with h | h <;> cases h
    exact ⟨request, hreq, e, he.set hi (fun h => by cases h), el, hr⟩
  | routeDone r => exact hs.set_self hi
  | clearReplicas => exact hs.set_writer hi rfl rfl rfl rfl rfl fun _ _ _ => rfl
  | clearZones =>
    cases op with
    | route request => exact hs.set_self hi
    | update L =>
      refine hs.set_writer hi rfl rfl rfl rfl rfl fun L' hL hph => ⟨[], ?_, clear_eq_new hph⟩
      cases hL
      rfl
  | insert rest =>
    cases rest with
    | nil =>
      simp only [Task.step]
      have hwt := hs.writer_of_holdsWrite hi rfl
      obtain ⟨L, hL, pre, hpre, he⟩ := hs.phase i _ hi rfl
      rw [List.append_nil] at hpre
      subst hpre
      exact hs.set hi rfl (by simp [TaskPc.holdsWrite, hwt])
        (fun h => by cases h) (fun h => by cases h) (fun h => by cases h)
        (fun _ => .inr ⟨i, _, pre, List.getElem?_set_self hil, hL, rfl, he⟩) (fun h => by cases h)
        (fun r h => by simp at h)
    | cons replica rest =>
      simp only [Task.step]
      exact hs.set_writer hi rfl rfl rfl rfl rfl fun _ _ ⟨pre, hpre, he⟩ => ⟨pre, hpre, by rw [he]⟩
  | push replica rest =>
    simp only [Task.step]
    exact hs.set_writer hi rfl rfl rfl rfl rfl fun _ _ ⟨pre, hpre, he⟩ =>
      ⟨pre ++ [replica], by simpa using hpre, by rw [he, List.foldl_append]; rfl⟩
  | updateDone => exact hs.set_self hi

/-- Every run keeps the invariant. -/
theorem inv_run {s : Sidecar} (hs : Inv geoResolver iterOrder e₀ s) (sched : List (Nat × UInt64)) :
    Inv geoResolver iterOrder e₀ (s.run geoResolver iterOrder sched) := by
  induction sched generalizing s with
  | nil => exact hs
  | cons a sched ih => exact ih (inv_step hs a.1 a.2)

/-! ## What every run guarantees -/

/-- Along every schedule the lock is exclusive: at most one task holds the write guard, and while
one does no task holds a read guard. -/
theorem lock_exclusive (e₀ : RoutingEngine) (ops : List Op) (sched : List (Nat × UInt64)) :
    let s := (Sidecar.init e₀ ops).run geoResolver iterOrder sched
    s.tasks.countP (·.pc.holdsWrite) ≤ 1 ∧
      (0 < s.tasks.countP (·.pc.holdsWrite) → s.tasks.countP (·.pc.holdsRead) = 0) := by
  intro s
  have hs : Inv geoResolver iterOrder e₀ s := inv_run (inv_init ops) sched
  rw [hs.writers_eq, ← hs.readers_eq]
  split_ifs with hw
  · exact ⟨Nat.le_refl 1, fun _ => hs.exclusive hw⟩
  · exact ⟨Nat.zero_le 1, fun h => absurd h (Nat.lt_irrefl 0)⟩

/-- Along every schedule the lock is exclusive, at most one task holding the write guard and no
task a read guard while one does; and every route the sidecar has answered was answered from a
whole table: the engine it started with, or the table of an `update_replicas` that had finished,
never from one that an update was rebuilding. -/
theorem route_reads_whole_table (e₀ : RoutingEngine) (ops : List Op) (sched : List (Nat × UInt64)) :
    let s := (Sidecar.init e₀ ops).run geoResolver iterOrder sched
    (s.tasks.countP (·.pc.holdsWrite) ≤ 1 ∧
      (0 < s.tasks.countP (·.pc.holdsWrite) → s.tasks.countP (·.pc.holdsRead) = 0)) ∧
    ∀ t ∈ s.tasks, ∀ r, t.pc = .routeDone r → ∃ request, t.op = .route request ∧
      ∃ e, (e = e₀ ∨ ∃ L, ⟨.update L, .updateDone⟩ ∈ s.tasks ∧ e = L.foldl insertReplica new) ∧
        ∃ elapsedMicros, r = e.routeRequest (iterOrder e.replicas) request geoResolver elapsedMicros := by
  intro s
  refine ⟨lock_exclusive e₀ ops sched, fun t ht r hr => ?_⟩
  have hs : Inv geoResolver iterOrder e₀ s := inv_run (inv_init ops) sched
  obtain ⟨j, hj⟩ := List.mem_iff_getElem?.mp ht
  obtain ⟨request, hreq, e, he, el, rfl⟩ := hs.routed j t r hj (.inr hr)
  refine ⟨request, hreq, e, ?_, el, rfl⟩
  rcases he with rfl | ⟨k, u, L, hk, hu, hd, rfl⟩
  · exact .inl rfl
  · refine .inr ⟨L, ?_, rfl⟩
    rw [← hu, ← hd]
    exact List.getElem?_mem hk

end Inv

end Sidecar

end RustCore.GeoSidecar
