import RustCore.GeoSidecar.RoutingTable
import Mathlib.Data.List.Dedup

/-!
# Routing a request

`route_request` resolves the client, keeps the healthy replicas in the order `DashMap::iter`
visits them, and selects one with `min_by` over a score: distance and load for a write, among
the leaders only (`select_best_leader`); distance, load, latency and a leader bonus for any other
query type (`select_best_replica`).

1. The request fails with "No healthy replicas available" when no replica is healthy, with
   "No healthy leaders available" when a write finds no healthy leader, and otherwise returns
   the replica `min_by` selects (`routeRequest_error`, `routeRequest_eq_ok_of_select`).
   Resolution never fails and `min_by` finds an element of every nonempty list, so the two
   "Failed to select" errors cannot occur (`routeRequest_eq_error_iff`).
2. After `update_replicas L`, the selected replica is the last replica of `L` with its id; it is
   healthy, and a leader for a write (`routeRequest_selects_last_replica`).
3. When no score is a NaN, each selection returns the first candidate whose score is at most
   every candidate's, the scores written out as the code computes them (`select_first_least`).
4. Two iteration orders of one table answer with two candidates of least score, so they differ
   only between candidates whose scores tie; and ties are broken by the iteration order alone:
   two orders of one table answer with different nodes (`routeRequest_orders_least`,
   `routeRequest_tie_order`).
-/

namespace RustCore.GeoSidecar

/-- `RoutingRequest`. -/
structure RoutingRequest where
  clientIp : IpAddr
  queryType : String
  timestamp : UInt64

/-- `RoutingResponse`. -/
structure RoutingResponse where
  nodeId : String
  host : String
  port : UInt16
  distanceKm : Float
  routingStrategy : String
  responseTimeMicros : UInt64

/-! ## Selection -/

/-- `f64::partial_cmp`: `None` when the two are unordered (a NaN). -/
def partialCmp (a b : Float) : Option Ordering :=
  match decide (a ≤ b), decide (b ≤ a) with
  | false, false => none
  | false, true => some .gt
  | true, false => some .lt
  | true, true => some .eq

/-- `Iterator::min_by`: a fold that keeps the element held unless the comparator says
`Greater`, so the first of equal elements wins. -/
def minBy {α : Type} (compare : α → α → Ordering) : List α → Option α
  | [] => none
  | x :: xs => some (xs.foldl (fun m y => match compare m y with | .gt => y | _ => m) x)

theorem minBy_eq_none {α : Type} (compare : α → α → Ordering) (l : List α) :
    minBy compare l = none ↔ l = [] := by
  cases l <;> simp [minBy]

theorem foldl_min_mem {α : Type} (compare : α → α → Ordering) (xs : List α) (x : α) :
    xs.foldl (fun m y => match compare m y with | .gt => y | _ => m) x ∈ x :: xs := by
  induction xs generalizing x with
  | nil => exact List.mem_singleton_self x
  | cons y ys ih =>
    rw [List.foldl_cons]
    split
    · exact List.mem_cons_of_mem _ (ih y)
    · rcases List.mem_cons.mp (ih x) with h | h
      · rw [h]; exact List.mem_cons_self _ _
      · exact List.mem_cons_of_mem _ (List.mem_cons_of_mem _ h)

theorem minBy_mem {α : Type} {compare : α → α → Ordering} {l : List α} {x : α}
    (h : minBy compare l = some x) : x ∈ l := by
  cases l with
  | nil => cases h
  | cons y ys => cases h; exact foldl_min_mem compare ys y

/-! ## What `min_by` returns

Reading `compare a b ≠ Greater` as `a ≤ b`: when `compare` is a total preorder on the list the
fold returns its first least element (`minBy_isFirstMin`), because each step keeps the first
least element of the prefix seen so far (`isFirstMin_minStep`). -/

section MinBy

variable {α : Type} (compare : α → α → Ordering)

/-- The step of the fold of `min_by`. -/
def minStep (m y : α) : α := match compare m y with | .gt => y | _ => m

theorem minBy_cons (x : α) (xs : List α) :
    minBy compare (x :: xs) = some (xs.foldl (minStep compare) x) := rfl

variable {compare}

theorem minStep_of_gt {m y : α} (h : compare m y = .gt) : minStep compare m y = y := by
  rw [minStep, h]

theorem minStep_of_ne_gt {m y : α} (h : compare m y ≠ .gt) : minStep compare m y = m := by
  unfold minStep
  split
  · contradiction
  · rfl

variable (compare)

/-- `compare` is a total preorder on the elements of `l`. -/
structure TotalPreorderOn (l : List α) : Prop where
  total : ∀ a ∈ l, ∀ b ∈ l, compare a b ≠ .gt ∨ compare b a ≠ .gt
  trans : ∀ a ∈ l, ∀ b ∈ l, ∀ c ∈ l, compare a b ≠ .gt → compare b c ≠ .gt → compare a c ≠ .gt

/-- `x` is the first least element of `l`: at most every element, and every element before it
is above it. -/
def IsFirstMin (l : List α) (x : α) : Prop :=
  ∃ pre post, l = pre ++ x :: post ∧ (∀ y ∈ l, compare x y ≠ .gt) ∧ ∀ y ∈ pre, compare y x = .gt

variable {compare}

theorem TotalPreorderOn.mono {l l' : List α} (h : TotalPreorderOn compare l) (hl : l' ⊆ l) :
    TotalPreorderOn compare l' :=
  ⟨fun a ha b hb => h.total a (hl ha) b (hl hb),
    fun a ha b hb c hc => h.trans a (hl ha) b (hl hb) c (hl hc)⟩

/-- One step of the fold keeps the first least element of the prefix seen so far. -/
theorem isFirstMin_minStep {P : List α} {m y : α} (h : TotalPreorderOn compare (P ++ [y]))
    (hm : IsFirstMin compare P m) : IsFirstMin compare (P ++ [y]) (minStep compare m y) := by
  obtain ⟨pre, post, rfl, hle, hpre⟩ := hm
  have hy : y ∈ pre ++ m :: post ++ [y] := List.mem_append_right _ (List.mem_singleton_self y)
  have hm : m ∈ pre ++ m :: post ++ [y] := List.mem_append_left _ (List.mem_append_right _
    (List.mem_cons_self _ _))
  have hP : ∀ z ∈ pre ++ m :: post, z ∈ pre ++ m :: post ++ [y] :=
    fun z hz => List.mem_append_left _ hz
  by_cases hmy : compare m y = .gt
  · rw [minStep_of_gt hmy]
    have hym : compare y m ≠ .gt := (h.total y hy m hm).resolve_right (not_not.mpr hmy)
    refine ⟨pre ++ m :: post, [], rfl, fun z hz => ?_, fun z hz => ?_⟩
    · rcases List.mem_append.mp hz with hz | hz
      · exact h.trans y hy m hm z (hP z hz) hym (hle z hz)
      · rw [List.mem_singleton.mp hz]
        exact (h.total y hy y hy).elim id id
    · exact not_not.mp fun hzy => h.trans m hm z (hP z hz) y hy (hle z hz) hzy hmy
  · rw [minStep_of_ne_gt hmy]
    refine ⟨pre, post ++ [y], by simp, fun z hz => ?_, hpre⟩
    rcases List.mem_append.mp hz with hz | hz
    · exact hle z hz
    · rw [List.mem_singleton.mp hz]; exact hmy

/-- The run of the fold: from the first least element of a prefix, the fold over the rest ends on
the first least element of the whole list. -/
theorem isFirstMin_foldl {P : List α} {m : α} (rest : List α)
    (h : TotalPreorderOn compare (P ++ rest)) (hm : IsFirstMin compare P m) :
    IsFirstMin compare (P ++ rest) (rest.foldl (minStep compare) m) := by
  induction rest generalizing P m with
  | nil => rw [List.append_nil] at h ⊢; exact hm
  | cons y ys ih =>
    have hsplit : P ++ y :: ys = P ++ [y] ++ ys := by simp
    rw [hsplit] at h ⊢
    exact ih h (isFirstMin_minStep (h.mono (List.subset_append_left _ _)) hm)

/-- On a list that `compare` totally preorders, `min_by` returns the first least element. -/
theorem minBy_isFirstMin {l : List α} (h : TotalPreorderOn compare l) (hne : l ≠ []) :
    ∃ x, minBy compare l = some x ∧ IsFirstMin compare l x := by
  obtain ⟨x, xs, rfl⟩ := List.exists_cons_of_ne_nil hne
  have hx : x ∈ x :: xs := List.mem_cons_self _ _
  have h₀ : IsFirstMin compare [x] x :=
    ⟨[], [], rfl, fun y hy => by
      rw [List.mem_singleton.mp hy]; exact (h.total x hx x hx).elim id id, fun _ hy => by cases hy⟩
  exact ⟨_, minBy_cons compare x xs, isFirstMin_foldl xs h h₀⟩

end MinBy

/-- The comparator of both `min_by` calls: scores by `partial_cmp`, unordered ones as equal. -/
def compareScores (score : ReplicaInfo → Float) (a b : ReplicaInfo) : Ordering :=
  (partialCmp (score a) (score b)).getD .eq

/-- Equal scores compare `Equal`, whether or not they are ordered. -/
theorem compareScores_of_score_eq {score : ReplicaInfo → Float} {a b : ReplicaInfo}
    (h : score a = score b) : compareScores score a b = .eq := by
  rw [compareScores, partialCmp, h]
  cases decide (score b ≤ score b) <;> rfl

/-- Of two candidates that score the same, `min_by` keeps the first. -/
theorem minBy_pair_of_score_eq {score : ReplicaInfo → Float} {a b : ReplicaInfo}
    (h : score a = score b) : minBy (compareScores score) [a, b] = some a := by
  rw [minBy_cons, List.foldl_cons, List.foldl_nil,
    minStep_of_ne_gt (by rw [compareScores_of_score_eq h]; decide)]

/-! ## Scores under `≤`

`partial_cmp(..).unwrap_or(Equal)` answers `Greater` exactly when `b ≤ a` and not `a ≤ b`
(`compareScores_eq_gt_iff`). IEEE 754 `≤` is transitive, and total on values none of which is a
NaN; Lean's `Float` leaves it opaque, so scores without a NaN are stated as `FloatTotalOn`, under
which `min_by` returns the first element of least score (`minBy_isFirstLeast`). -/

/-- IEEE 754 `≤` on values none of which is a NaN: total and transitive. -/
structure FloatTotalOn (xs : List Float) : Prop where
  total : ∀ a ∈ xs, ∀ b ∈ xs, a ≤ b ∨ b ≤ a
  trans : ∀ a ∈ xs, ∀ b ∈ xs, ∀ c ∈ xs, a ≤ b → b ≤ c → a ≤ c

theorem FloatTotalOn.mono {xs ys : List Float} (h : FloatTotalOn xs) (hys : ys ⊆ xs) :
    FloatTotalOn ys :=
  ⟨fun a ha b hb => h.total a (hys ha) b (hys hb),
    fun a ha b hb c hc => h.trans a (hys ha) b (hys hb) c (hys hc)⟩

/-- `x` is the first element of `l` of least score: its score is at most every score, and every
element before it scores above it. -/
def IsFirstLeast (score : ReplicaInfo → Float) (l : List ReplicaInfo) (x : ReplicaInfo) : Prop :=
  ∃ pre post, l = pre ++ x :: post ∧ (∀ y ∈ l, score x ≤ score y) ∧ ∀ y ∈ pre, ¬score y ≤ score x

theorem compareScores_eq_gt_iff {score : ReplicaInfo → Float} {a b : ReplicaInfo} :
    compareScores score a b = .gt ↔ ¬score a ≤ score b ∧ score b ≤ score a := by
  by_cases h₁ : score a ≤ score b <;> by_cases h₂ : score b ≤ score a <;>
    simp [compareScores, partialCmp, h₁, h₂]

section Least

variable {score : ReplicaInfo → Float} {l : List ReplicaInfo} (h : FloatTotalOn (l.map score))
include h

theorem le_of_compareScores_ne_gt {a b : ReplicaInfo} (ha : a ∈ l) (hb : b ∈ l)
    (hab : compareScores score a b ≠ .gt) : score a ≤ score b := by
  rw [Ne, compareScores_eq_gt_iff, not_and_or, not_not] at hab
  exact hab.elim id
    (h.total _ (List.mem_map_of_mem _ ha) _ (List.mem_map_of_mem _ hb)).resolve_right

theorem totalPreorderOn_of_floatTotalOn : TotalPreorderOn (compareScores score) l := by
  have hne {a b : ReplicaInfo} (hab : score a ≤ score b) : compareScores score a b ≠ .gt :=
    fun hg => (compareScores_eq_gt_iff.mp hg).1 hab
  refine ⟨fun a ha b hb => ?_, fun a ha b hb c hc hab hbc => hne ?_⟩
  · exact (h.total _ (List.mem_map_of_mem _ ha) _ (List.mem_map_of_mem _ hb)).imp hne hne
  · exact h.trans _ (List.mem_map_of_mem _ ha) _ (List.mem_map_of_mem _ hb) _
      (List.mem_map_of_mem _ hc) (le_of_compareScores_ne_gt h ha hb hab)
      (le_of_compareScores_ne_gt h hb hc hbc)

theorem IsFirstMin.isFirstLeast {x : ReplicaInfo} (hx : IsFirstMin (compareScores score) l x) :
    IsFirstLeast score l x := by
  obtain ⟨pre, post, hl, hle, hpre⟩ := hx
  have hxl : x ∈ l := hl ▸ List.mem_append_right _ (List.mem_cons_self _ _)
  exact ⟨pre, post, hl, fun y hy => le_of_compareScores_ne_gt h hxl hy (hle y hy),
    fun y hy => (compareScores_eq_gt_iff.mp (hpre y hy)).1⟩

end Least

/-- On a nonempty list `min_by` returns an element of it, which is the first of least score when
no score is a NaN. -/
theorem minBy_isFirstLeast (score : ReplicaInfo → Float) {l : List ReplicaInfo} (hne : l ≠ []) :
    ∃ x, minBy (compareScores score) l = some x ∧ x ∈ l ∧
      (FloatTotalOn (l.map score) → IsFirstLeast score l x) := by
  obtain ⟨x, hx⟩ : ∃ x, minBy (compareScores score) l = some x :=
    Option.ne_none_iff_exists'.mp fun h => hne ((minBy_eq_none _ _).mp h)
  refine ⟨x, hx, minBy_mem hx, fun h => ?_⟩
  obtain ⟨y, hy, hmin⟩ := minBy_isFirstMin (totalPreorderOn_of_floatTotalOn h) hne
  rw [hx] at hy
  cases hy
  exact hmin.isFirstLeast h

/-- The score of `select_best_leader`: 100 km per unit of load. -/
def leaderScore (geoResolver : GeoResolver) (clientLocation : GeoLocation)
    (r : ReplicaInfo) : Float :=
  geoResolver.calculateDistance clientLocation r.geoLocation + r.loadScore * 100.0

/-- The score of `select_best_replica`: load, latency, and 50 km off for a leader. -/
def replicaScore (geoResolver : GeoResolver) (clientLocation : GeoLocation)
    (r : ReplicaInfo) : Float :=
  let leaderBonus : Float := if r.isLeader then -50.0 else 0.0
  geoResolver.calculateDistance clientLocation r.geoLocation + r.loadScore * 100.0 + r.latencyMs +
    leaderBonus

namespace RoutingEngine

/-- `RoutingEngine::select_best_leader`. -/
def selectBestLeader (_self : RoutingEngine) (candidates : List ReplicaInfo)
    (clientLocation : GeoLocation) (geoResolver : GeoResolver) : Except String ReplicaInfo :=
  let leaders := candidates.filter (·.isLeader)
  if leaders.isEmpty then .error "No healthy leaders available"
  else
    match minBy (compareScores (leaderScore geoResolver clientLocation)) leaders with
    | some bestLeader => .ok bestLeader
    | none => .error "Failed to select leader"

/-- `RoutingEngine::select_best_replica`. -/
def selectBestReplica (_self : RoutingEngine) (candidates : List ReplicaInfo)
    (clientLocation : GeoLocation) (geoResolver : GeoResolver) : Except String ReplicaInfo :=
  match minBy (compareScores (replicaScore geoResolver clientLocation)) candidates with
  | some bestReplica => .ok bestReplica
  | none => .error "Failed to select replica"

/-- `RoutingEngine::route_request`. `iter` is the order in which `self.replicas.iter()` visits
the entries, and `elapsedMicros` the reading of `start_time.elapsed()`. -/
def routeRequest (self : RoutingEngine) (iter : List ((_ : String) × ReplicaInfo))
    (request : RoutingRequest) (geoResolver : GeoResolver) (elapsedMicros : UInt64) :
    Except String RoutingResponse :=
  match geoResolver.resolve request.clientIp with
  | .error e => .error e
  | .ok clientLocation =>
    let healthyReplicas := (iter.filter (·.2.healthy)).map (·.2)
    if healthyReplicas.isEmpty then .error "No healthy replicas available"
    else
      let selected :=
        if request.queryType = "write" then
          self.selectBestLeader healthyReplicas clientLocation geoResolver
        else self.selectBestReplica healthyReplicas clientLocation geoResolver
      match selected with
      | .error e => .error e
      | .ok selectedReplica =>
        .ok { nodeId := selectedReplica.nodeId
              host := selectedReplica.host
              port := selectedReplica.port
              distanceKm :=
                geoResolver.calculateDistance clientLocation selectedReplica.geoLocation
              routingStrategy := "closest_healthy"
              responseTimeMicros := elapsedMicros }

/-- `RoutingEngine::get_replica_count`. -/
def getReplicaCount (self : RoutingEngine) : Nat := self.replicas.entries.length

/-- `RoutingEngine::get_healthy_replica_count`. -/
def getHealthyReplicaCount (self : RoutingEngine) : Nat :=
  (self.replicas.entries.filter (·.2.healthy)).length

/-- `RoutingEngine::get_leader_count`. -/
def getLeaderCount (self : RoutingEngine) : Nat :=
  (self.replicas.entries.filter fun e => e.2.isLeader && e.2.healthy).length

/-! ## What a request can return -/

section Spec

variable (self : RoutingEngine) (candidates : List ReplicaInfo) (clientLocation : GeoLocation)
  (geoResolver : GeoResolver)

theorem selectBestLeader_ok {x : ReplicaInfo}
    (h : self.selectBestLeader candidates clientLocation geoResolver = .ok x) :
    x ∈ candidates ∧ x.isLeader = true := by
  simp only [selectBestLeader] at h
  split_ifs at h
  split at h
  · cases h
    exact List.mem_filter.mp (minBy_mem ‹_›)
  · cases h

theorem selectBestLeader_error (e : String) :
    self.selectBestLeader candidates clientLocation geoResolver = .error e ↔
      (∀ x ∈ candidates, x.isLeader = false) ∧ e = "No healthy leaders available" := by
  simp only [selectBestLeader]
  split_ifs with h
  · simp only [List.isEmpty_iff, List.filter_eq_nil_iff, Bool.not_eq_true] at h
    simp only [Except.error.injEq]
    exact ⟨fun he => ⟨h, he.symm⟩, fun he => he.2.symm⟩
  · have hne : candidates.filter (·.isLeader) ≠ [] := by simpa using h
    split
    · simp only [reduceCtorEq, false_iff, not_and]
      intro hall
      exact absurd (List.filter_eq_nil_iff.mpr (by simpa using hall)) hne
    · rename_i hmin
      exact absurd ((minBy_eq_none _ _).mp hmin) hne

theorem selectBestReplica_ok {x : ReplicaInfo}
    (h : self.selectBestReplica candidates clientLocation geoResolver = .ok x) : x ∈ candidates := by
  simp only [selectBestReplica] at h
  split at h
  · cases h; exact minBy_mem ‹_›
  · cases h

theorem selectBestLeader_eq_ok {x : ReplicaInfo}
    (h : minBy (compareScores (leaderScore geoResolver clientLocation))
      (candidates.filter (·.isLeader)) = some x) :
    self.selectBestLeader candidates clientLocation geoResolver = .ok x := by
  have hne : (candidates.filter (·.isLeader)).isEmpty = false := by
    rw [Bool.eq_false_iff, ne_eq, List.isEmpty_iff, ← minBy_eq_none, h]
    exact Option.some_ne_none x
  simp only [selectBestLeader, hne, h]
  rfl

theorem selectBestReplica_eq_ok {x : ReplicaInfo}
    (h : minBy (compareScores (replicaScore geoResolver clientLocation)) candidates = some x) :
    self.selectBestReplica candidates clientLocation geoResolver = .ok x := by
  simp only [selectBestReplica, h]

theorem selectBestReplica_error_of_ne_nil (hne : candidates ≠ []) (e : String) :
    self.selectBestReplica candidates clientLocation geoResolver ≠ .error e := by
  simp only [selectBestReplica]
  split
  · exact fun h => by cases h
  · rename_i hmin
    exact absurd ((minBy_eq_none _ _).mp hmin) hne

end Spec

/-! ## The least score -/

/-- Each selection returns one of its candidates, which, when no score is a NaN, is the first
candidate whose score is at most every candidate's: for `select_best_replica` the score
`distance + 100 · load_score + latency_ms`, 50 less for a leader; for `select_best_leader`,
among the leaders, `distance + 100 · load_score`. -/
theorem select_first_least (self : RoutingEngine) (candidates : List ReplicaInfo)
    (clientLocation : GeoLocation) (geoResolver : GeoResolver) :
    let distance := fun r : ReplicaInfo => geoResolver.calculateDistance clientLocation r.geoLocation
    let readScore := fun r : ReplicaInfo =>
      distance r + r.loadScore * 100.0 + r.latencyMs + (if r.isLeader then -50.0 else 0.0)
    let writeScore := fun r : ReplicaInfo => distance r + r.loadScore * 100.0
    let leaders := candidates.filter (·.isLeader)
    (candidates ≠ [] → ∃ x, self.selectBestReplica candidates clientLocation geoResolver = .ok x ∧
      x ∈ candidates ∧
      (FloatTotalOn (candidates.map readScore) → IsFirstLeast readScore candidates x)) ∧
    (leaders ≠ [] → ∃ x, self.selectBestLeader candidates clientLocation geoResolver = .ok x ∧
      x ∈ leaders ∧ (FloatTotalOn (leaders.map writeScore) → IsFirstLeast writeScore leaders x)) := by
  intro distance readScore writeScore leaders
  refine ⟨fun hne => ?_, fun hne => ?_⟩
  · obtain ⟨x, hx, hmem, hleast⟩ := minBy_isFirstLeast (replicaScore geoResolver clientLocation) hne
    exact ⟨x, selectBestReplica_eq_ok _ _ _ _ hx, hmem, hleast⟩
  · obtain ⟨x, hx, hmem, hleast⟩ := minBy_isFirstLeast (leaderScore geoResolver clientLocation) hne
    exact ⟨x, selectBestLeader_eq_ok _ _ _ _ hx, hmem, hleast⟩

/-- Two leaders that differ only in id and host tie under both scores; both selections return
the first. -/
theorem select_first_least_tie :
    let ra : ReplicaInfo := ⟨"a", "ha", 1, true, true, "z", GeoLocation.default, 0.0, 0.0⟩
    let rb : ReplicaInfo := ⟨"b", "hb", 1, true, true, "z", GeoLocation.default, 0.0, 0.0⟩
    let candidates := [ra, rb]
    let distance := fun r : ReplicaInfo =>
      GeoResolver.calculateDistance ⟨none⟩ GeoLocation.default r.geoLocation
    let readScore := fun r : ReplicaInfo =>
      distance r + r.loadScore * 100.0 + r.latencyMs + (if r.isLeader then -50.0 else 0.0)
    let writeScore := fun r : ReplicaInfo => distance r + r.loadScore * 100.0
    let leaders := candidates.filter (·.isLeader)
    candidates ≠ [] ∧ leaders ≠ [] ∧
    ((candidates ≠ [] → ∃ x, new.selectBestReplica candidates GeoLocation.default ⟨none⟩ = .ok x ∧
      x ∈ candidates ∧
      (FloatTotalOn (candidates.map readScore) → IsFirstLeast readScore candidates x)) ∧
    (leaders ≠ [] → ∃ x, new.selectBestLeader candidates GeoLocation.default ⟨none⟩ = .ok x ∧
      x ∈ leaders ∧ (FloatTotalOn (leaders.map writeScore) → IsFirstLeast writeScore leaders x))) ∧
    new.selectBestReplica candidates GeoLocation.default ⟨none⟩ = .ok ra ∧
    new.selectBestLeader candidates GeoLocation.default ⟨none⟩ = .ok ra := by
  intro ra rb candidates distance readScore writeScore leaders
  have hne : candidates ≠ [] := List.cons_ne_nil _ _
  have hr : replicaScore ⟨none⟩ GeoLocation.default ra = replicaScore ⟨none⟩ GeoLocation.default rb :=
    rfl
  have hl : leaderScore ⟨none⟩ GeoLocation.default ra = leaderScore ⟨none⟩ GeoLocation.default rb :=
    rfl
  exact ⟨hne, hne, select_first_least new candidates GeoLocation.default ⟨none⟩,
    selectBestReplica_eq_ok _ _ _ _ (minBy_pair_of_score_eq hr),
    selectBestLeader_eq_ok _ _ _ _ (minBy_pair_of_score_eq hl)⟩

section Route

variable (self : RoutingEngine) (iter : List ((_ : String) × ReplicaInfo))
  (request : RoutingRequest) (geoResolver : GeoResolver) (elapsedMicros : UInt64)

/-- A successful request answers with a healthy replica the iteration visited, a leader for a
write. -/
theorem routeRequest_ok {resp : RoutingResponse}
    (h : self.routeRequest iter request geoResolver elapsedMicros = .ok resp) :
    ∃ x ∈ (iter.filter (·.2.healthy)).map (·.2), (request.queryType = "write" → x.isLeader = true) ∧
      resp.nodeId = x.nodeId ∧ resp.host = x.host ∧ resp.port = x.port := by
  obtain ⟨loc, hloc⟩ := resolve_ok geoResolver request.clientIp
  simp only [routeRequest, hloc] at h
  split_ifs at h with hempty hwrite
  · split at h
    · cases h
    · cases h
      obtain ⟨hmem, hlead⟩ := selectBestLeader_ok _ _ _ _ ‹_›
      exact ⟨_, hmem, fun _ => hlead, rfl, rfl, rfl⟩
  · split at h
    · cases h
    · cases h
      exact ⟨_, selectBestReplica_ok _ _ _ _ ‹_›, fun h' => absurd h' hwrite, rfl, rfl, rfl⟩

/-- The errors of a request: no healthy replica, or a write and no healthy leader. -/
theorem routeRequest_error (e : String) :
    self.routeRequest iter request geoResolver elapsedMicros = .error e ↔
      ((iter.filter (·.2.healthy)).map (·.2) = [] ∧ e = "No healthy replicas available") ∨
      ((iter.filter (·.2.healthy)).map (·.2) ≠ [] ∧ request.queryType = "write" ∧
        (∀ x ∈ (iter.filter (·.2.healthy)).map (·.2), x.isLeader = false) ∧
        e = "No healthy leaders available") := by
  obtain ⟨loc, hloc⟩ := resolve_ok geoResolver request.clientIp
  simp only [routeRequest, hloc]
  split_ifs with hempty hwrite
  · rw [List.isEmpty_iff] at hempty
    simp only [Except.error.injEq, hempty, true_and, ne_eq, not_true_eq_false, false_and, or_false]
    exact ⟨Eq.symm, Eq.symm⟩
  · rw [List.isEmpty_iff] at hempty
    split
    · rename_i e' he'
      rw [selectBestLeader_error] at he'
      simp only [Except.error.injEq, hempty, ne_eq, not_false_eq_true, hwrite, true_and,
        false_and, false_or, he'.2]
      exact ⟨fun h => ⟨he'.1, h.symm⟩, fun h => h.2.symm⟩
    · simp only [reduceCtorEq, false_iff, not_or, not_and]
      rename_i x hx
      exact ⟨fun h => absurd h hempty, fun _ _ hall => by
        have := (selectBestLeader_ok _ _ _ _ hx)
        rw [hall x this.1] at this
        exact absurd this.2 (by decide)⟩
  · rw [List.isEmpty_iff] at hempty
    split
    · rename_i e' he'
      exact absurd he' (selectBestReplica_error_of_ne_nil _ _ _ _ hempty e')
    · simp [hempty, hwrite]

/-- A request whose selection returns `x` is answered with `x`. -/
theorem routeRequest_eq_ok_of_select {clientLocation : GeoLocation}
    (hloc : geoResolver.resolve request.clientIp = .ok clientLocation) {x : ReplicaInfo}
    (hsel : (if request.queryType = "write" then
        self.selectBestLeader ((iter.filter (·.2.healthy)).map (·.2)) clientLocation geoResolver
      else self.selectBestReplica ((iter.filter (·.2.healthy)).map (·.2)) clientLocation
        geoResolver) = .ok x) :
    self.routeRequest iter request geoResolver elapsedMicros =
      .ok ⟨x.nodeId, x.host, x.port, geoResolver.calculateDistance clientLocation x.geoLocation,
        "closest_healthy", elapsedMicros⟩ := by
  have hmem : x ∈ (iter.filter (·.2.healthy)).map (·.2) := by
    split_ifs at hsel
    · exact (selectBestLeader_ok _ _ _ _ hsel).1
    · exact selectBestReplica_ok _ _ _ _ hsel
  have hne : ((iter.filter (·.2.healthy)).map (·.2)).isEmpty = false := by
    rw [Bool.eq_false_iff, ne_eq, List.isEmpty_iff]
    exact List.ne_nil_of_mem hmem
  simp only [routeRequest, hloc, hne, hsel]
  rfl

/-- A request other than a write is answered with what `min_by` returns on the healthy replicas. -/
theorem routeRequest_eq_ok_of_read {clientLocation : GeoLocation}
    (hloc : geoResolver.resolve request.clientIp = .ok clientLocation)
    (hw : request.queryType ≠ "write") {x : ReplicaInfo}
    (h : minBy (compareScores (replicaScore geoResolver clientLocation))
      ((iter.filter (·.2.healthy)).map (·.2)) = some x) :
    self.routeRequest iter request geoResolver elapsedMicros =
      .ok ⟨x.nodeId, x.host, x.port, geoResolver.calculateDistance clientLocation x.geoLocation,
        "closest_healthy", elapsedMicros⟩ :=
  routeRequest_eq_ok_of_select self iter request geoResolver elapsedMicros hloc
    (by rw [if_neg hw]; exact selectBestReplica_eq_ok _ _ _ _ h)

/-- The score a request ranks its candidates by. -/
abbrev routeScore (request : RoutingRequest) : GeoResolver → GeoLocation → ReplicaInfo → Float :=
  if request.queryType = "write" then leaderScore else replicaScore

/-- The candidates a request ranks: the healthy replicas in iteration order, and for a write
only the leaders among them. -/
def routeCandidates (request : RoutingRequest) (iter : List ((_ : String) × ReplicaInfo)) :
    List ReplicaInfo :=
  if request.queryType = "write" then ((iter.filter (·.2.healthy)).map (·.2)).filter (·.isLeader)
  else (iter.filter (·.2.healthy)).map (·.2)

/-- A request answered with `resp` is answered with what `min_by` returns on its candidates. -/
theorem routeRequest_ok_minBy {clientLocation : GeoLocation}
    (hloc : geoResolver.resolve request.clientIp = .ok clientLocation) {resp : RoutingResponse}
    (h : self.routeRequest iter request geoResolver elapsedMicros = .ok resp) :
    ∃ x, minBy (compareScores (routeScore request geoResolver clientLocation))
      (routeCandidates request iter) = some x ∧ resp.nodeId = x.nodeId := by
  simp only [routeRequest, hloc, routeScore, routeCandidates] at h ⊢
  split_ifs at h ⊢ with hempty hw
  · simp only [selectBestLeader] at h
    split_ifs at h
    split at h
    · cases h
    · rename_i hsel
      cases h
      split at hsel
      · cases hsel; exact ⟨_, ‹_›, rfl⟩
      · cases hsel
  · simp only [selectBestReplica] at h
    split at h
    · cases h
    · rename_i hsel
      cases h
      split at hsel
      · cases hsel; exact ⟨_, ‹_›, rfl⟩
      · cases hsel

end Route

/-! ## Routing after an update -/

theorem healthy_eq_nil_iff {self : RoutingEngine} {iter : List ((_ : String) × ReplicaInfo)}
    (hit : self.replicas.IsIterOrder iter) :
    (iter.filter (·.2.healthy)).map (·.2) = [] ↔ self.getHealthyReplicaCount = 0 := by
  rw [List.map_eq_nil_iff, ← List.length_eq_zero, getHealthyReplicaCount,
    (List.Perm.filter _ hit).length_eq]

theorem no_healthy_leader_iff {self : RoutingEngine} {iter : List ((_ : String) × ReplicaInfo)}
    (hit : self.replicas.IsIterOrder iter) :
    (∀ x ∈ (iter.filter (·.2.healthy)).map (·.2), x.isLeader = false) ↔
      self.getLeaderCount = 0 := by
  rw [getLeaderCount, List.length_eq_zero, List.filter_eq_nil_iff]
  simp only [List.mem_map, List.mem_filter, forall_exists_index, and_imp, List.Perm.mem_iff hit,
    Bool.and_eq_true, not_and, Bool.not_eq_true]
  constructor
  · intro h e he hl
    cases hh : e.2.healthy
    · rfl
    · simpa [hl] using h _ e he hh rfl
  · rintro h x e he hh rfl
    cases hl : e.2.isLeader
    · rfl
    · simpa [hh] using h e he hl

/-- A request fails exactly when no replica is healthy, or when it is a write and no healthy
replica is a leader, with the message of that case. -/
theorem routeRequest_eq_error_iff (self : RoutingEngine) {iter : List ((_ : String) × ReplicaInfo)}
    (hit : self.replicas.IsIterOrder iter) (request : RoutingRequest) (geoResolver : GeoResolver)
    (elapsedMicros : UInt64) (e : String) :
    self.routeRequest iter request geoResolver elapsedMicros = .error e ↔
      (self.getHealthyReplicaCount = 0 ∧ e = "No healthy replicas available") ∨
      (self.getHealthyReplicaCount ≠ 0 ∧ request.queryType = "write" ∧ self.getLeaderCount = 0 ∧
        e = "No healthy leaders available") := by
  rw [routeRequest_error, ne_eq, healthy_eq_nil_iff hit, no_healthy_leader_iff hit]

/-- A healthy follower alone: a write fails for want of a leader. -/
theorem routeRequest_eq_error_iff_follower :
    let engine := [(⟨"a", "h", 1, false, true, "z", GeoLocation.default, 0.0, 0.0⟩ : ReplicaInfo)].foldl
      insertReplica new
    let request : RoutingRequest := ⟨.V4 0, "write", 0⟩
    engine.replicas.IsIterOrder engine.replicas.entries ∧
      (engine.routeRequest engine.replicas.entries request ⟨none⟩ 0 =
          .error "No healthy leaders available" ↔
        (engine.getHealthyReplicaCount = 0 ∧
          "No healthy leaders available" = "No healthy replicas available") ∨
        (engine.getHealthyReplicaCount ≠ 0 ∧ request.queryType = "write" ∧
          engine.getLeaderCount = 0 ∧
          "No healthy leaders available" = "No healthy leaders available")) :=
  ⟨List.Perm.refl _, routeRequest_eq_error_iff _ (List.Perm.refl _) _ _ _ _⟩

/-- After `update_replicas L`, a request is answered by the last replica of `L` with the
answered id; it is healthy, and a leader for a write. -/
theorem routeRequest_selects_last_replica {self engine : RoutingEngine} {L : List ReplicaInfo}
    (hu : self.updateReplicas L = .ok engine) {iter : List ((_ : String) × ReplicaInfo)}
    (hit : engine.replicas.IsIterOrder iter) {request : RoutingRequest}
    {geoResolver : GeoResolver} {elapsedMicros : UInt64} {resp : RoutingResponse}
    (h : engine.routeRequest iter request geoResolver elapsedMicros = .ok resp) :
    ∃ pre x post, L = pre ++ x :: post ∧ x.nodeId = resp.nodeId ∧
      (∀ y ∈ post, y.nodeId ≠ x.nodeId) ∧ x.healthy = true ∧ resp.host = x.host ∧
      resp.port = x.port ∧ (request.queryType = "write" → x.isLeader = true) := by
  obtain ⟨x, hx, hlead, hid, hhost, hport⟩ := routeRequest_ok _ _ _ _ _ h
  obtain ⟨⟨k, x⟩, hmem, rfl⟩ := List.mem_map.mp hx
  rw [List.mem_filter] at hmem
  obtain ⟨pre, post, hL, hk, hpost⟩ :=
    mem_entries_updateReplicas hu ((List.Perm.mem_iff hit).mp hmem.1)
  exact ⟨pre, x, post, hL, hid.symm, by rw [hk]; exact hpost, hmem.2, hhost, hport, hlead⟩

/-- A table holding `old`, updated with `a`, a healthy follower `b`, and `a` again on another
host: a write is answered by the healthy leader `a` on the host of its last occurrence. -/
theorem routeRequest_selects_last_replica_duplicate :
    let old : ReplicaInfo := ⟨"old", "ho", 9, true, true, "z", GeoLocation.default, 0.0, 0.0⟩
    let a₁ : ReplicaInfo := ⟨"a", "h1", 1, true, true, "z", GeoLocation.default, 0.0, 0.0⟩
    let b : ReplicaInfo := ⟨"b", "hb", 2, false, true, "z", GeoLocation.default, 0.0, 0.0⟩
    let a₂ : ReplicaInfo := ⟨"a", "h2", 3, true, true, "z", GeoLocation.default, 0.0, 0.0⟩
    let self := [old].foldl insertReplica new
    let L := [a₁, b, a₂]
    let engine := L.foldl insertReplica new
    let request : RoutingRequest := ⟨.V4 0, "write", 0⟩
    let resp : RoutingResponse := ⟨"a", "h2", 3,
      GeoResolver.calculateDistance ⟨none⟩ GeoLocation.default GeoLocation.default,
      "closest_healthy", 0⟩
    self.replicas.entries ≠ [] ∧ self.updateReplicas L = .ok engine ∧
      engine.replicas.IsIterOrder engine.replicas.entries ∧
      engine.routeRequest engine.replicas.entries request ⟨none⟩ 0 = .ok resp ∧
      ∃ pre x post, L = pre ++ x :: post ∧ x.nodeId = resp.nodeId ∧
        (∀ y ∈ post, y.nodeId ≠ x.nodeId) ∧ x.healthy = true ∧ resp.host = x.host ∧
        resp.port = x.port ∧ (request.queryType = "write" → x.isLeader = true) := by
  intro old a₁ b a₂ self L engine request resp
  have hu : self.updateReplicas L = .ok engine := rfl
  have hit : engine.replicas.IsIterOrder engine.replicas.entries := List.Perm.refl _
  have h : engine.routeRequest engine.replicas.entries request ⟨none⟩ 0 = .ok resp := rfl
  exact ⟨List.cons_ne_nil _ _, hu, hit, h, routeRequest_selects_last_replica hu hit h⟩

/-! ## The counters after an update -/

/-- The node ids of the primary map after an update are the distinct ids of the list. -/
theorem keys_perm_updateReplicas {self engine : RoutingEngine} {L : List ReplicaInfo}
    (hu : self.updateReplicas L = .ok engine) :
    engine.replicas.keys.Perm (L.map (·.nodeId)).dedup := by
  refine (List.perm_ext_iff_of_nodup (AList.keys_nodup _) (List.nodup_dedup _)).mpr fun k => ?_
  rw [← AList.mem_keys, List.mem_dedup, ← AList.lookup_isSome, lookup_updateReplicas hu,
    List.find?_isSome]
  simp

/-- With distinct ids, the primary map after an update holds exactly the replicas of the list,
each under its id. -/
theorem entries_perm_updateReplicas {self engine : RoutingEngine} {L : List ReplicaInfo}
    (hu : self.updateReplicas L = .ok engine) (hnd : (L.map (·.nodeId)).Nodup) :
    engine.replicas.entries.Perm (L.map fun r => ⟨r.nodeId, r⟩) := by
  have hnd' : (L.map fun r => (⟨r.nodeId, r⟩ : (_ : String) × ReplicaInfo)).Nodup :=
    List.Nodup.of_map Sigma.fst (by rwa [List.map_map])
  refine (List.perm_ext_iff_of_nodup engine.replicas.nodupKeys.nodup hnd').mpr fun ⟨k, x⟩ => ?_
  rw [← AList.mem_lookup_iff, Option.mem_def, lookup_updateReplicas_of_nodup hu hnd]
  simp only [List.mem_map, Sigma.mk.inj_iff, heq_eq_eq]
  constructor
  · rintro ⟨hx, rfl⟩; exact ⟨x, hx, rfl, rfl⟩
  · rintro ⟨r, hr, rfl, rfl⟩; exact ⟨hr, rfl⟩

/-- After an update, `get_replica_count` is the number of distinct node ids of the list, a
later replica replacing an earlier one with its id. When the ids are distinct,
`get_healthy_replica_count` and `get_leader_count` count the healthy replicas and the healthy
leaders of the list. -/
theorem counts_updateReplicas {self engine : RoutingEngine} {L : List ReplicaInfo}
    (hu : self.updateReplicas L = .ok engine) :
    engine.getReplicaCount = (L.map (·.nodeId)).dedup.length ∧
      ((L.map (·.nodeId)).Nodup →
        engine.getHealthyReplicaCount = L.countP (·.healthy) ∧
        engine.getLeaderCount = L.countP fun r => r.isLeader && r.healthy) := by
  refine ⟨?_, fun hnd => ?_⟩
  · rw [getReplicaCount, ← (keys_perm_updateReplicas hu).length_eq, AList.keys, List.keys,
      List.length_map]
  · have hp := entries_perm_updateReplicas hu hnd
    simp only [getHealthyReplicaCount, getLeaderCount, (hp.filter _).length_eq, List.filter_map,
      List.length_map, List.countP_eq_length_filter, Function.comp_def, and_self]

/-- A node id given twice: one replica counted, the later one, which is unhealthy. -/
theorem counts_updateReplicas_duplicate :
    let r₁ : ReplicaInfo := ⟨"a", "h", 1, true, true, "z1", GeoLocation.default, 0.0, 0.0⟩
    let r₂ : ReplicaInfo := { r₁ with healthy := false }
    let L := [r₁, r₂]
    let engine := L.foldl insertReplica new
    new.updateReplicas L = .ok engine ∧ engine.getReplicaCount = 1 ∧
      engine.getReplicaCount = (L.map (·.nodeId)).dedup.length ∧
      ((L.map (·.nodeId)).Nodup →
        engine.getHealthyReplicaCount = L.countP (·.healthy) ∧
        engine.getLeaderCount = L.countP fun r => r.isLeader && r.healthy) := by
  intro r₁ r₂ L engine
  have hu : new.updateReplicas L = .ok engine := rfl
  exact ⟨hu, rfl, counts_updateReplicas hu⟩

/-! ## Ties and the iteration order -/

/-- With distinct ids, the healthy candidates of every iteration order after `update_replicas L`
are the healthy replicas of `L`. -/
theorem mem_healthy_updateReplicas {self engine : RoutingEngine} {L : List ReplicaInfo}
    (hu : self.updateReplicas L = .ok engine) (hnd : (L.map (·.nodeId)).Nodup)
    {iter : List ((_ : String) × ReplicaInfo)} (hit : engine.replicas.IsIterOrder iter)
    (y : ReplicaInfo) :
    y ∈ (iter.filter (·.2.healthy)).map (·.2) ↔ y ∈ L ∧ y.healthy = true := by
  simp only [List.mem_map, List.mem_filter, List.Perm.mem_iff hit]
  constructor
  · rintro ⟨⟨k, x⟩, ⟨hmem, hh⟩, rfl⟩
    exact ⟨((lookup_updateReplicas_of_nodup hu hnd k x).mp (AList.mem_lookup_iff.mpr hmem)).1, hh⟩
  · rintro ⟨hy, hh⟩
    exact ⟨⟨y.nodeId, y⟩, ⟨AList.mem_lookup_iff.mp
      ((lookup_updateReplicas_of_nodup hu hnd _ y).mpr ⟨hy, rfl⟩), hh⟩, rfl⟩

/-- With distinct ids, the candidates of every iteration order after `update_replicas L` are the
healthy replicas of `L`, and for a write its healthy leaders. -/
theorem mem_routeCandidates_updateReplicas {self engine : RoutingEngine} {L : List ReplicaInfo}
    (hu : self.updateReplicas L = .ok engine) (hnd : (L.map (·.nodeId)).Nodup)
    {iter : List ((_ : String) × ReplicaInfo)} (hit : engine.replicas.IsIterOrder iter)
    (request : RoutingRequest) (y : ReplicaInfo) :
    y ∈ routeCandidates request iter ↔
      y ∈ L.filter fun y => y.healthy && (request.queryType != "write" || y.isLeader) := by
  rw [routeCandidates]
  split_ifs with hw <;>
    simp [List.mem_filter, mem_healthy_updateReplicas hu hnd hit, hw, and_assoc]

/-- Two healthy followers that differ only in id and host score the same, and `min_by` keeps the
first it meets: the two iteration orders of one table answer a read with different nodes. -/
theorem routeRequest_tie_order :
    let ra : ReplicaInfo := ⟨"a", "ha", 1, false, true, "z", GeoLocation.default, 0.0, 0.0⟩
    let rb : ReplicaInfo := ⟨"b", "hb", 1, false, true, "z", GeoLocation.default, 0.0, 0.0⟩
    let engine := [ra, rb].foldl insertReplica new
    let request : RoutingRequest := ⟨.V4 0, "read", 0⟩
    new.updateReplicas [ra, rb] = .ok engine ∧ ([ra, rb].map (·.nodeId)).Nodup ∧
      engine.replicas.IsIterOrder [⟨"a", ra⟩, ⟨"b", rb⟩] ∧
      engine.replicas.IsIterOrder [⟨"b", rb⟩, ⟨"a", ra⟩] ∧
      (engine.routeRequest [⟨"a", ra⟩, ⟨"b", rb⟩] request ⟨none⟩ 0).map (·.nodeId) = .ok "a" ∧
      (engine.routeRequest [⟨"b", rb⟩, ⟨"a", ra⟩] request ⟨none⟩ 0).map (·.nodeId) = .ok "b" := by
  intro ra rb engine request
  have hscore : replicaScore ⟨none⟩ GeoLocation.default ra =
      replicaScore ⟨none⟩ GeoLocation.default rb := rfl
  have rab := routeRequest_eq_ok_of_read engine [⟨"a", ra⟩, ⟨"b", rb⟩] request ⟨none⟩ 0 rfl
    (by decide) (minBy_pair_of_score_eq hscore)
  have rba := routeRequest_eq_ok_of_read engine [⟨"b", rb⟩, ⟨"a", ra⟩] request ⟨none⟩ 0 rfl
    (by decide) (minBy_pair_of_score_eq hscore.symm)
  refine ⟨rfl, by decide, List.Perm.swap _ _ _, List.Perm.refl _, ?_, ?_⟩
  · rw [rab]; rfl
  · rw [rba]; rfl

/-- With distinct ids, whatever the order of the list given to `update_replicas` and whatever
the two iteration orders, a request is answered with two candidates (healthy replicas, healthy
leaders for a write) which, when no score is a NaN, both have the least score: the answers can
differ only between candidates whose scores tie. -/
theorem routeRequest_orders_least {self₁ self₂ e₁ e₂ : RoutingEngine} {L₁ L₂ : List ReplicaInfo}
    (hL : L₁.Perm L₂) (hnd : (L₁.map (·.nodeId)).Nodup)
    (hu₁ : self₁.updateReplicas L₁ = .ok e₁) (hu₂ : self₂.updateReplicas L₂ = .ok e₂)
    {it₁ it₂ : List ((_ : String) × ReplicaInfo)}
    (h₁ : e₁.replicas.IsIterOrder it₁) (h₂ : e₂.replicas.IsIterOrder it₂)
    {request : RoutingRequest} {geoResolver : GeoResolver} {clientLocation : GeoLocation}
    (hloc : geoResolver.resolve request.clientIp = .ok clientLocation)
    {elapsed₁ elapsed₂ : UInt64} {r₁ r₂ : RoutingResponse}
    (hr₁ : e₁.routeRequest it₁ request geoResolver elapsed₁ = .ok r₁)
    (hr₂ : e₂.routeRequest it₂ request geoResolver elapsed₂ = .ok r₂) :
    let distance := fun y : ReplicaInfo => geoResolver.calculateDistance clientLocation y.geoLocation
    let score := fun y : ReplicaInfo =>
      if request.queryType = "write" then distance y + y.loadScore * 100.0
      else distance y + y.loadScore * 100.0 + y.latencyMs + (if y.isLeader then -50.0 else 0.0)
    let candidates := L₁.filter fun y => y.healthy && (request.queryType != "write" || y.isLeader)
    ∃ x₁ ∈ candidates, ∃ x₂ ∈ candidates, x₁.nodeId = r₁.nodeId ∧ x₂.nodeId = r₂.nodeId ∧
      (FloatTotalOn (candidates.map score) →
        ∀ y ∈ candidates, score x₁ ≤ score y ∧ score x₂ ≤ score y) := by
  intro distance score candidates
  have hscore : routeScore request geoResolver clientLocation = score := by
    funext y
    by_cases hw : request.queryType = "write" <;> simp only [routeScore, score, hw, if_true, if_false] <;> rfl
  have hmem₁ := mem_routeCandidates_updateReplicas hu₁ hnd h₁ request
  have hmem₂ (y : ReplicaInfo) : y ∈ routeCandidates request it₂ ↔ y ∈ candidates := by
    rw [mem_routeCandidates_updateReplicas hu₂ ((hL.map _).nodup_iff.mp hnd) h₂ request,
      List.mem_filter, List.mem_filter, hL.mem_iff]
  obtain ⟨x₁, hx₁, hid₁⟩ := routeRequest_ok_minBy _ _ _ _ _ hloc hr₁
  obtain ⟨x₂, hx₂, hid₂⟩ := routeRequest_ok_minBy _ _ _ _ _ hloc hr₂
  rw [hscore] at hx₁ hx₂
  refine ⟨x₁, (hmem₁ x₁).mp (minBy_mem hx₁), x₂, (hmem₂ x₂).mp (minBy_mem hx₂), hid₁.symm,
    hid₂.symm, fun h y hy => ?_⟩
  have hleast {it : List ((_ : String) × ReplicaInfo)}
      (hmem : ∀ y, y ∈ routeCandidates request it ↔ y ∈ candidates) {x : ReplicaInfo}
      (hx : minBy (compareScores score) (routeCandidates request it) = some x) :
      score x ≤ score y := by
    obtain ⟨x', hx', -, hl⟩ := minBy_isFirstLeast score (List.ne_nil_of_mem (minBy_mem hx))
    rw [hx] at hx'
    cases hx'
    obtain ⟨-, -, -, hle, -⟩ := hl (h.mono (List.map_subset score fun z hz => (hmem z).mp hz))
    exact hle y ((hmem y).mpr hy)
  exact ⟨hleast hmem₁ hx₁, hleast hmem₂ hx₂⟩

/-- Two healthy followers that tie, given to `update_replicas` in the two orders and visited in
the two orders: the reads are answered with different nodes, both of least score. -/
theorem routeRequest_orders_least_tie :
    let ra : ReplicaInfo := ⟨"a", "ha", 1, false, true, "z", GeoLocation.default, 0.0, 0.0⟩
    let rb : ReplicaInfo := ⟨"b", "hb", 1, false, true, "z", GeoLocation.default, 0.0, 0.0⟩
    let L₁ := [ra, rb]
    let L₂ := [rb, ra]
    let e₁ := L₁.foldl insertReplica new
    let e₂ := L₂.foldl insertReplica new
    let request : RoutingRequest := ⟨.V4 0, "read", 0⟩
    let it₁ : List ((_ : String) × ReplicaInfo) := [⟨"a", ra⟩, ⟨"b", rb⟩]
    let it₂ : List ((_ : String) × ReplicaInfo) := [⟨"b", rb⟩, ⟨"a", ra⟩]
    let dist := GeoResolver.calculateDistance ⟨none⟩ GeoLocation.default GeoLocation.default
    let r₁ : RoutingResponse := ⟨"a", "ha", 1, dist, "closest_healthy", 0⟩
    let r₂ : RoutingResponse := ⟨"b", "hb", 1, dist, "closest_healthy", 0⟩
    let distance := fun y : ReplicaInfo =>
      GeoResolver.calculateDistance ⟨none⟩ GeoLocation.default y.geoLocation
    let score := fun y : ReplicaInfo =>
      if request.queryType = "write" then distance y + y.loadScore * 100.0
      else distance y + y.loadScore * 100.0 + y.latencyMs + (if y.isLeader then -50.0 else 0.0)
    let candidates := L₁.filter fun y => y.healthy && (request.queryType != "write" || y.isLeader)
    L₁.Perm L₂ ∧ (L₁.map (·.nodeId)).Nodup ∧ new.updateReplicas L₁ = .ok e₁ ∧
      new.updateReplicas L₂ = .ok e₂ ∧ e₁.replicas.IsIterOrder it₁ ∧ e₂.replicas.IsIterOrder it₂ ∧
      (⟨none⟩ : GeoResolver).resolve request.clientIp = .ok GeoLocation.default ∧
      e₁.routeRequest it₁ request ⟨none⟩ 0 = .ok r₁ ∧
      e₂.routeRequest it₂ request ⟨none⟩ 0 = .ok r₂ ∧
      ∃ x₁ ∈ candidates, ∃ x₂ ∈ candidates, x₁.nodeId = r₁.nodeId ∧ x₂.nodeId = r₂.nodeId ∧
        (FloatTotalOn (candidates.map score) →
          ∀ y ∈ candidates, score x₁ ≤ score y ∧ score x₂ ≤ score y) := by
  intro ra rb L₁ L₂ e₁ e₂ request it₁ it₂ dist r₁ r₂ distance score candidates
  have hs : replicaScore ⟨none⟩ GeoLocation.default ra = replicaScore ⟨none⟩ GeoLocation.default rb :=
    rfl
  have hL : L₁.Perm L₂ := List.Perm.swap _ _ _
  have hnd : (L₁.map (·.nodeId)).Nodup := by decide
  have hu₁ : new.updateReplicas L₁ = .ok e₁ := rfl
  have hu₂ : new.updateReplicas L₂ = .ok e₂ := rfl
  have h₁ : e₁.replicas.IsIterOrder it₁ := List.Perm.swap _ _ _
  have h₂ : e₂.replicas.IsIterOrder it₂ := List.Perm.swap _ _ _
  have hloc : (⟨none⟩ : GeoResolver).resolve request.clientIp = .ok GeoLocation.default := rfl
  have hr₁ : e₁.routeRequest it₁ request ⟨none⟩ 0 = .ok r₁ :=
    routeRequest_eq_ok_of_read e₁ it₁ request ⟨none⟩ 0 rfl (by decide) (minBy_pair_of_score_eq hs)
  have hr₂ : e₂.routeRequest it₂ request ⟨none⟩ 0 = .ok r₂ :=
    routeRequest_eq_ok_of_read e₂ it₂ request ⟨none⟩ 0 rfl (by decide)
      (minBy_pair_of_score_eq hs.symm)
  exact ⟨hL, hnd, hu₁, hu₂, h₁, h₂, hloc, hr₁, hr₂,
    routeRequest_orders_least hL hnd hu₁ hu₂ h₁ h₂ hloc hr₁ hr₂⟩

end RoutingEngine

end RustCore.GeoSidecar
