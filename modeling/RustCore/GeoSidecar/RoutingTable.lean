import RustCore.GeoSidecar.Geo
import Mathlib.Data.List.AList

/-!
# The routing table

`RoutingEngine` holds two `DashMap`s: `replicas`, from node id to `ReplicaInfo`, and
`zone_replicas`, from zone to the node ids pushed for it. `update_replicas` clears both and
inserts the replicas of its list one by one (`insertReplica` is the body of its loop).

1. After an update the primary map holds, under each node id, the last replica of the list with
   that id (`lookup_updateReplicas`): earlier duplicates and the old table are gone.
2. The zone index holds, under each zone, the id of every replica of the list in that zone, in
   order and with repetitions (`zoneReplicas_updateReplicas`). Whatever the list, every replica
   of the primary map is listed in the bucket of its zone, and every id of a bucket is a key of
   the primary map; the two agree exactly when the ids of the list are distinct, and not
   otherwise (`updateReplicas_zone_index`, `updateReplicas_stale_zone`).
-/

namespace RustCore.GeoSidecar

/-- `DashMap`, a map with unique keys. The order of `entries` is no iteration order: what
`DashMap::iter` visits is `IsIterOrder`. -/
abbrev DashMap (K V : Type) := AList (fun _ : K => V)

/-- `DashMap::iter` visits every entry once, in an order fixed by the map's hashing which the
model leaves open: any permutation of the entries. -/
def DashMap.IsIterOrder {K V : Type} (m : DashMap K V) (it : List ((_ : K) × V)) : Prop :=
  it.Perm m.entries

/-- `ReplicaInfo`. -/
structure ReplicaInfo where
  nodeId : String
  host : String
  port : UInt16
  isLeader : Bool
  healthy : Bool
  zone : String
  geoLocation : GeoLocation
  loadScore : Float
  latencyMs : Float

/-- `RoutingEngine`. -/
structure RoutingEngine where
  replicas : DashMap String ReplicaInfo
  zoneReplicas : DashMap String (List String)

namespace RoutingEngine

/-- `RoutingEngine::new`. -/
def new : RoutingEngine := ⟨∅, ∅⟩

/-- One pass of the loop of `update_replicas`: `replicas.insert(node_id, replica)`, then
`zone_replicas.entry(zone).or_insert_with(Vec::new).push(node_id)`. -/
def insertReplica (self : RoutingEngine) (replica : ReplicaInfo) : RoutingEngine :=
  let zone := replica.zone
  let nodeId := replica.nodeId
  { replicas := self.replicas.insert nodeId replica
    zoneReplicas := self.zoneReplicas.insert zone ((self.zoneReplicas.lookup zone).getD [] ++ [nodeId]) }

/-- `RoutingEngine::update_replicas`: clear both maps, then insert the replicas in order. It
returns `Ok` whatever the list. -/
def updateReplicas (self : RoutingEngine) (replicas : List ReplicaInfo) :
    Except String RoutingEngine :=
  .ok (replicas.foldl insertReplica { self with replicas := ∅, zoneReplicas := ∅ })

/-! ## The primary map -/

theorem foldl_replicas (L : List ReplicaInfo) (e : RoutingEngine) :
    (L.foldl insertReplica e).replicas = L.foldl (fun m r => m.insert r.nodeId r) e.replicas := by
  induction L generalizing e with
  | nil => rfl
  | cons r L ih => exact ih _

/-- Inserting a list keeps, under each id, its last replica with that id. -/
theorem lookup_foldl_insert (L : List ReplicaInfo) (m : DashMap String ReplicaInfo) (k : String) :
    (L.foldl (fun m r => m.insert r.nodeId r) m).lookup k =
      (L.reverse.find? (·.nodeId == k)).or (m.lookup k) := by
  induction L generalizing m with
  | nil => simp
  | cons r L ih =>
    rw [List.foldl_cons, ih, List.reverse_cons, List.find?_append, Option.or_assoc]
    congr 1
    by_cases h : r.nodeId = k
    · subst h; simp
    · simp [h, AList.lookup_insert_ne (Ne.symm h)]

theorem lookup_updateReplicas {self engine : RoutingEngine} {L : List ReplicaInfo}
    (hu : self.updateReplicas L = .ok engine) (k : String) :
    engine.replicas.lookup k = L.reverse.find? (·.nodeId == k) := by
  cases hu
  rw [foldl_replicas, lookup_foldl_insert]
  simp [new]

/-- An entry of the primary map is the last replica of the list with its id. -/
theorem mem_entries_updateReplicas {self engine : RoutingEngine} {L : List ReplicaInfo}
    (hu : self.updateReplicas L = .ok engine) {k : String} {x : ReplicaInfo}
    (hx : ⟨k, x⟩ ∈ engine.replicas.entries) :
    ∃ pre post, L = pre ++ x :: post ∧ x.nodeId = k ∧ ∀ y ∈ post, y.nodeId ≠ k := by
  rw [← AList.mem_lookup_iff, lookup_updateReplicas hu, Option.mem_def, List.find?_eq_some] at hx
  obtain ⟨hk, as, bs, hrev, has⟩ := hx
  refine ⟨bs.reverse, as.reverse, ?_, by simpa using hk, fun y hy => ?_⟩
  · rw [← List.reverse_reverse L, hrev]; simp
  · simpa using has y (List.mem_reverse.mp hy)

/-! ## The zone index -/

theorem lookup_foldl_zone (L : List ReplicaInfo) (e : RoutingEngine) (z : String) :
    (L.foldl insertReplica e).zoneReplicas.lookup z =
      if L.any (·.zone == z) then
        some ((e.zoneReplicas.lookup z).getD [] ++ (L.filter (·.zone == z)).map (·.nodeId))
      else e.zoneReplicas.lookup z := by
  induction L generalizing e with
  | nil => simp
  | cons r L ih =>
    rw [List.foldl_cons, ih]
    by_cases h : r.zone = z
    · subst h
      split_ifs <;> simp_all [insertReplica]
    · simp [insertReplica, h, AList.lookup_insert_ne (Ne.symm h)]

/-- After an update, zone `z` holds the ids of the replicas of the list in `z`, in order. -/
theorem zoneReplicas_updateReplicas {self engine : RoutingEngine} {L : List ReplicaInfo}
    (hu : self.updateReplicas L = .ok engine) (z : String) :
    engine.zoneReplicas.lookup z =
      if L.any (·.zone == z) then some ((L.filter (·.zone == z)).map (·.nodeId)) else none := by
  cases hu
  rw [lookup_foldl_zone]
  simp [new]

theorem getD_zoneReplicas_updateReplicas {self engine : RoutingEngine} {L : List ReplicaInfo}
    (hu : self.updateReplicas L = .ok engine) (z : String) :
    (engine.zoneReplicas.lookup z).getD [] = (L.filter (·.zone == z)).map (·.nodeId) := by
  rw [zoneReplicas_updateReplicas hu]
  split_ifs with h
  · rfl
  · simpa using h

/-- With distinct ids, the primary map holds exactly the replicas of the list. -/
theorem lookup_updateReplicas_of_nodup {self engine : RoutingEngine} {L : List ReplicaInfo}
    (hu : self.updateReplicas L = .ok engine) (hnd : (L.map (·.nodeId)).Nodup) (n : String)
    (r : ReplicaInfo) : engine.replicas.lookup n = some r ↔ r ∈ L ∧ r.nodeId = n := by
  rw [lookup_updateReplicas hu]
  constructor
  · intro h
    exact ⟨List.mem_reverse.mp (List.mem_of_find?_eq_some h), by simpa using List.find?_some h⟩
  · rintro ⟨hr, rfl⟩
    obtain ⟨r', hr'⟩ : ∃ r', L.reverse.find? (·.nodeId == r.nodeId) = some r' :=
      Option.isSome_iff_exists.mp (List.find?_isSome.mpr ⟨r, List.mem_reverse.mpr hr, by simp⟩)
    have hid : r'.nodeId = r.nodeId := by simpa using List.find?_some hr'
    rw [hr', List.inj_on_of_nodup_map hnd (List.mem_reverse.mp (List.mem_of_find?_eq_some hr')) hr hid]

/-- Whatever the list, every replica of the primary map is listed in the bucket of its zone. -/
theorem mem_zone_of_lookup {self engine : RoutingEngine} {L : List ReplicaInfo}
    (hu : self.updateReplicas L = .ok engine) {n : String} {r : ReplicaInfo}
    (h : engine.replicas.lookup n = some r) : n ∈ (engine.zoneReplicas.lookup r.zone).getD [] := by
  rw [lookup_updateReplicas hu] at h
  rw [getD_zoneReplicas_updateReplicas hu]
  have hid : r.nodeId = n := by simpa using List.find?_some h
  exact List.mem_map.mpr ⟨r, List.mem_filter.mpr
    ⟨List.mem_reverse.mp (List.mem_of_find?_eq_some h), by simp⟩, hid⟩

/-- Whatever the list, every id of a bucket is a key of the primary map. -/
theorem lookup_of_mem_zone {self engine : RoutingEngine} {L : List ReplicaInfo}
    (hu : self.updateReplicas L = .ok engine) {z n : String}
    (h : n ∈ (engine.zoneReplicas.lookup z).getD []) : ∃ r, engine.replicas.lookup n = some r := by
  rw [getD_zoneReplicas_updateReplicas hu] at h
  obtain ⟨r, hr, rfl⟩ := List.mem_map.mp h
  rw [lookup_updateReplicas hu]
  exact Option.isSome_iff_exists.mp (List.find?_isSome.mpr
    ⟨r, List.mem_reverse.mpr (List.mem_filter.mp hr).1, by simp⟩)

/-- Agreement of the zone index with the primary map, for a list with distinct ids. -/
theorem zone_index_agrees {self engine : RoutingEngine} {L : List ReplicaInfo}
    (hu : self.updateReplicas L = .ok engine) (hnd : (L.map (·.nodeId)).Nodup) (z n : String) :
    (n ∈ (engine.zoneReplicas.lookup z).getD [] ↔
        ∃ r, engine.replicas.lookup n = some r ∧ r.zone = z) ∧
      ((engine.zoneReplicas.lookup z).getD []).Nodup ∧
      (z ∈ engine.zoneReplicas → ∃ n r, engine.replicas.lookup n = some r ∧ r.zone = z) := by
  refine ⟨?_, ?_, fun hz => ?_⟩
  · rw [getD_zoneReplicas_updateReplicas hu]
    simp only [List.mem_map, List.mem_filter, beq_iff_eq, lookup_updateReplicas_of_nodup hu hnd]
    constructor
    · rintro ⟨r, ⟨hr, hz⟩, rfl⟩; exact ⟨r, ⟨hr, rfl⟩, hz⟩
    · rintro ⟨r, ⟨hr, rfl⟩, hz⟩; exact ⟨r, ⟨hr, hz⟩, rfl⟩
  · rw [getD_zoneReplicas_updateReplicas hu]
    exact ((List.filter_sublist L).map _).nodup hnd
  · rw [← AList.lookup_isSome, zoneReplicas_updateReplicas hu] at hz
    split_ifs at hz with h
    · obtain ⟨r, hr, hz⟩ := List.any_eq_true.mp h
      exact ⟨r.nodeId, r, (lookup_updateReplicas_of_nodup hu hnd _ _).mpr ⟨hr, rfl⟩,
        beq_iff_eq.mp hz⟩
    · simp at hz

/-- The zone index as `update_replicas` builds it; for every list, every replica of the primary
map is listed in the bucket of its zone and every id of a bucket is a key of the primary map;
and, for a list with distinct ids, the full agreement of the two maps. -/
theorem updateReplicas_zone_index (self : RoutingEngine) (L : List ReplicaInfo) :
    ∃ engine, self.updateReplicas L = .ok engine ∧
      (∀ z, engine.zoneReplicas.lookup z =
        if L.any (·.zone == z) then some ((L.filter (·.zone == z)).map (·.nodeId)) else none) ∧
      (∀ n r, engine.replicas.lookup n = some r →
        n ∈ (engine.zoneReplicas.lookup r.zone).getD []) ∧
      (∀ z n, n ∈ (engine.zoneReplicas.lookup z).getD [] → ∃ r, engine.replicas.lookup n = some r) ∧
      ((L.map (·.nodeId)).Nodup → ∀ z n,
        (n ∈ (engine.zoneReplicas.lookup z).getD [] ↔
          ∃ r, engine.replicas.lookup n = some r ∧ r.zone = z) ∧
        ((engine.zoneReplicas.lookup z).getD []).Nodup ∧
        (z ∈ engine.zoneReplicas → ∃ n r, engine.replicas.lookup n = some r ∧ r.zone = z)) :=
  have hu : self.updateReplicas L = .ok _ := rfl
  ⟨_, hu, zoneReplicas_updateReplicas hu, fun _ _ => mem_zone_of_lookup hu,
    fun _ _ => lookup_of_mem_zone hu, zone_index_agrees hu⟩

/-- A node id given twice, in two zones: the first zone keeps the id although the primary map
holds the replica of the second. -/
theorem updateReplicas_stale_zone :
    let r₁ : ReplicaInfo := ⟨"a", "h", 1, true, true, "z1", GeoLocation.default, 0.0, 0.0⟩
    let r₂ : ReplicaInfo := { r₁ with zone := "z2" }
    ∃ engine, new.updateReplicas [r₁, r₂] = .ok engine ∧
      "a" ∈ (engine.zoneReplicas.lookup "z1").getD [] ∧
      (engine.replicas.lookup "a").map ReplicaInfo.zone = some "z2" :=
  ⟨_, rfl, by decide, rfl⟩

end RoutingEngine

end RustCore.GeoSidecar
