import RustCore.GeoSidecar.Routing
import RustCore.GeoSidecar.Metrics

/-!
# The sidecar protocol

A connection carries frames: a big-endian `u32` length, then that many bytes of JSON.
`handle_connection` reads a frame, answers it with a frame, and loops; it ends only with an
error, when the input ends inside a frame or a frame declares more than 1 MiB. Between reading
a request and writing its response, `process_request` decodes the request and runs it, and its
errors become an error response, so that they never end the connection.

`serde_json` and the parser of addresses are outside the repository: the model takes them as a
`Codec`. The clock readings and the iteration order a request sees are its `Readings`.

1. One pass of the loop answers one whole frame of at most 1 MiB; on input that does not start
   with one it returns the loop's error, and of an oversized frame it reads the header only
   (`loopPass_frame`, `loopPass_stop`). The loop makes these passes one after another
   (`handleLoop_succ`), and frames parse one way only (`flatMap_frame_append_eq`).
2. Only a request that decodes to `update_routing_table` changes the routing engine, and it
   replaces the whole table (`processRequest_routingEngine`).
3. Whatever the input, a connection ends after at most one pass per byte, and always with one
   of its two errors (`handleConnection_ends`).

The tasks of the connections share one engine and one collector; `Server` runs them together.
-/

namespace RustCore.GeoSidecar

/-! ## Messages -/

/-- The numbers of `serde_json::Value`. -/
inductive JsonNumber
  | posInt (n : UInt64)
  | float (x : Float)

/-- `serde_json::Value`. -/
inductive Json
  | null
  | bool (b : Bool)
  | number (n : JsonNumber)
  | string (s : String)
  | array (xs : List Json)
  | object (fields : List (String × Json))

/-- `serde_json::to_value` of an `f64`: a number, or `null` when it is not finite. -/
def Json.ofFloat (x : Float) : Json := if x.isFinite then .number (.float x) else .null

/-- `serde_json::to_value` of a `RoutingResponse`: its fields, under their Rust names. -/
def RoutingResponse.toValue (r : RoutingResponse) : Json :=
  .object [("node_id", .string r.nodeId), ("host", .string r.host),
    ("port", .number (.posInt r.port.toUInt64)), ("distance_km", .ofFloat r.distanceKm),
    ("routing_strategy", .string r.routingStrategy),
    ("response_time_micros", .number (.posInt r.responseTimeMicros))]

/-- `SidecarRequestType`. -/
inductive SidecarRequestType
  | route (clientIp queryType : String)
  | updateRoutingTable (replicas : List ReplicaInfo)
  | ping
  | getMetrics

/-- `SidecarRequest`. -/
structure SidecarRequest where
  inner : SidecarRequestType
  timestamp : UInt64

/-- `SidecarResponse`. -/
structure SidecarResponse where
  success : Bool
  data : Option Json
  error : Option String
  timestamp : UInt64

/-- `SidecarResponse::success`, `now` being `current_timestamp_micros()`. -/
def SidecarResponse.mkSuccess (data : Json) (now : UInt64) : SidecarResponse :=
  ⟨true, some data, none, now⟩

/-- `SidecarResponse::error`. -/
def SidecarResponse.mkError (error : String) (now : UInt64) : SidecarResponse :=
  ⟨false, none, some error, now⟩

/-- The parts of `serde_json` and `std` the sidecar calls. -/
structure Codec where
  /-- `serde_json::from_slice::<SidecarRequest>`, an error as its text. -/
  fromSlice : List UInt8 → Except String SidecarRequest
  /-- `serde_json::to_vec` of a response, which cannot fail on `SidecarResponse`. -/
  toVec : SidecarResponse → List UInt8
  /-- `str::parse::<IpAddr>`, an error as its text. -/
  parseIpAddr : String → Except String IpAddr

/-- What a request reads from its environment. -/
structure Readings where
  /-- The order in which `DashMap::iter` visits a primary map. -/
  iterOrder : DashMap String ReplicaInfo → List ((_ : String) × ReplicaInfo)
  iterOrder_isIterOrder : ∀ m : DashMap String ReplicaInfo, m.IsIterOrder (iterOrder m)
  /-- `start_time.elapsed()` in `route_request`. -/
  elapsedMicros : UInt64
  /-- `current_timestamp_micros()` when the response is built. -/
  now : UInt64
  /-- `start_time.elapsed()` in `handle_connection`, the latency it records. -/
  latencyMicros : UInt64

/-! ## Answering one request -/

/-- `process_request`: the routing engine after the request, and the response or the text of
the error. -/
def processRequest (codec : Codec) (requestData : List UInt8) (geoResolver : GeoResolver)
    (routingEngine : RoutingEngine) (r : Readings) :
    RoutingEngine × Except String SidecarResponse :=
  match codec.fromSlice requestData with
  | .error e => (routingEngine, .error e)
  | .ok request =>
    match request.inner with
    | .route clientIp queryType =>
      match codec.parseIpAddr clientIp with
      | .error e => (routingEngine, .error e)
      | .ok ip =>
        let routingRequest : RoutingRequest := ⟨ip, queryType, request.timestamp⟩
        match routingEngine.routeRequest (r.iterOrder routingEngine.replicas) routingRequest
            geoResolver r.elapsedMicros with
        | .error e => (routingEngine, .error e)
        | .ok routingResponse => (routingEngine, .ok (.mkSuccess routingResponse.toValue r.now))
    | .updateRoutingTable replicas =>
      match routingEngine.updateReplicas replicas with
      | .error e => (routingEngine, .error e)
      | .ok updated => (updated, .ok (.mkSuccess (.object [("updated", .bool true)]) r.now))
    | .ping => (routingEngine, .ok (.mkSuccess (.object [("pong", .bool true)]) r.now))
    | .getMetrics =>
      (routingEngine, .ok (.mkSuccess (.object [("metrics", .string "todo")]) r.now))

/-- `AsyncReadExt::read_exact`: the first `n` bytes and the rest, or `early eof` once the input
is used up. -/
def readExact (n : Nat) (input : List UInt8) : Except String (List UInt8 × List UInt8) :=
  if n ≤ input.length then .ok (input.take n, input.drop n) else .error "early eof"

/-- How a connection ends: the state of its handler, the bytes written, the input left unread,
and the error. -/
structure Outcome (σ : Type) where
  state : σ
  written : List UInt8
  rest : List UInt8
  error : String

variable {σ : Type} (respond : σ → List UInt8 → σ × List UInt8)

/-- The loop of `handle_connection`, at most `fuel` passes, answering with `respond`. -/
def handleLoop : Nat → σ → List UInt8 → List UInt8 → Option (Outcome σ)
  | 0, _, _, _ => none
  | fuel + 1, st, input, written =>
    match readExact 4 input with
    | .error e => some ⟨st, written, [], e⟩
    | .ok (buffer, input) =>
      let length := u32FromBeBytes buffer
      if length > 1024 * 1024 then
        some ⟨st, written, input, "Request too large: " ++ toString length ++ " bytes"⟩
      else
        match readExact length input with
        | .error e => some ⟨st, written, [], e⟩
        | .ok (requestData, input) =>
          let (st, responseData) := respond st requestData
          handleLoop fuel st input (written ++ u32ToBeBytes responseData.length ++ responseData)

/-- `handle_connection` on the bytes its peer sends. A pass reads four bytes at least, so the
length of the input bounds the passes. -/
def handleConnection (st : σ) (input : List UInt8) : Option (Outcome σ) :=
  handleLoop respond (input.length + 1) st input []

/-- One pass of the loop of `handle_connection`: the outcome when the loop returns its error,
else the state, the input left and the bytes written. -/
def loopPass (st : σ) (input written : List UInt8) : Outcome σ ⊕ (σ × List UInt8 × List UInt8) :=
  match readExact 4 input with
  | .error e => .inl ⟨st, written, [], e⟩
  | .ok (buffer, input) =>
    let length := u32FromBeBytes buffer
    if length > 1024 * 1024 then
      .inl ⟨st, written, input, "Request too large: " ++ toString length ++ " bytes"⟩
    else
      match readExact length input with
      | .error e => .inl ⟨st, written, [], e⟩
      | .ok (requestData, input) =>
        let (st, responseData) := respond st requestData
        .inr (st, input, written ++ u32ToBeBytes responseData.length ++ responseData)

/-- The loop is its passes one after another. -/
theorem handleLoop_succ (fuel : Nat) (st : σ) (input written : List UInt8) :
    handleLoop respond (fuel + 1) st input written =
      match loopPass respond st input written with
      | .inl o => some o
      | .inr (st, input, written) => handleLoop respond fuel st input written := by
  rw [handleLoop, loopPass]
  split
  · rfl
  · dsimp only
    split_ifs
    · rfl
    · split <;> rfl

/-- The errors a connection ends with: its input ends inside a frame, or a frame declares more
than 1 MiB. -/
def LoopError (e : String) : Prop :=
  e = "early eof" ∨ ∃ length, length > 1024 * 1024 ∧ e = "Request too large: " ++ toString length ++ " bytes"

/-! ## Frames -/

/-- A frame: the length of `p` as a big-endian `u32`, then `p`. -/
def frame (p : List UInt8) : List UInt8 := u32ToBeBytes p.length ++ p

/-- Input that does not start with a whole frame of at most 1 MiB. -/
def NoFrame (t : List UInt8) : Prop := ∀ p u, p.length ≤ 1024 * 1024 → t ≠ frame p ++ u

/-- How the loop stops on such input: the error, and the input it leaves unread. -/
def stopOn (t : List UInt8) : String × List UInt8 :=
  if t.length < 4 then ("early eof", [])
  else
    let length := u32FromBeBytes (t.take 4)
    if length > 1024 * 1024 then ("Request too large: " ++ toString length ++ " bytes", t.drop 4)
    else ("early eof", [])

theorem frame_header {p : List UInt8} (h : p.length < 2 ^ 32) :
    u32FromBeBytes ((frame p).take 4) = p.length := by
  rw [frame, List.take_left' (length_u32ToBeBytes _), u32FromBeBytes_toBeBytes h]

theorem readExact_append {n : Nat} {p u : List UInt8} (h : p.length = n) :
    readExact n (p ++ u) = .ok (p, u) := by
  simp [readExact, ← h]

/-- Frames are what `NoFrame` rules out: a short header, an oversized length, or a short body. -/
theorem noFrame_iff {t : List UInt8} :
    NoFrame t ↔ t.length < 4 ∨ 1024 * 1024 < u32FromBeBytes (t.take 4) ∨
      (t.drop 4).length < u32FromBeBytes (t.take 4) := by
  constructor
  · intro ht
    by_contra hc
    simp only [not_or, Nat.not_lt] at hc
    obtain ⟨h4, hlen, hbody⟩ := hc
    refine ht ((t.drop 4).take (u32FromBeBytes (t.take 4))) ((t.drop 4).drop
      (u32FromBeBytes (t.take 4))) (by rw [List.length_take]; omega) ?_
    rw [frame, List.append_assoc, List.take_append_drop, List.length_take,
      Nat.min_eq_left hbody, u32ToBeBytes_fromBeBytes (by simpa using h4), List.take_append_drop]
  · rintro h p u hp rfl
    have hhead : (frame p ++ u).take 4 = u32ToBeBytes p.length := by
      rw [frame, List.append_assoc, List.take_left' (length_u32ToBeBytes _)]
    have hdrop : (frame p ++ u).drop 4 = p ++ u := by
      rw [frame, List.append_assoc, List.drop_left' (length_u32ToBeBytes _)]
    rw [hhead, hdrop, u32FromBeBytes_toBeBytes (by omega)] at h
    simp only [frame, List.length_append, length_u32ToBeBytes] at h
    omega

instance : DecidablePred NoFrame := fun _ => decidable_of_iff _ noFrame_iff.symm

/-- Input starts with a whole frame of at most 1 MiB, or it does not. -/
theorem noFrame_or_frame (t : List UInt8) :
    NoFrame t ∨ ∃ p u, p.length ≤ 1024 * 1024 ∧ t = frame p ++ u := by
  by_cases h : NoFrame t
  · exact .inl h
  · simp only [NoFrame, not_forall, not_not] at h
    obtain ⟨p, u, hp, rfl⟩ := h
    exact .inr ⟨p, u, hp, rfl⟩

theorem stopOn_loopError (t : List UInt8) : LoopError (stopOn t).1 := by
  unfold stopOn
  dsimp only
  split_ifs with h4 hlen
  · exact .inl rfl
  · exact .inr ⟨_, hlen, rfl⟩
  · exact .inl rfl

/-- One pass answers a whole frame of at most 1 MiB. -/
theorem loopPass_frame {p : List UInt8} (hp : p.length ≤ 1024 * 1024) (st : σ)
    (u written : List UInt8) :
    loopPass respond st (frame p ++ u) written =
      .inr ((respond st p).1, u, written ++ frame (respond st p).2) := by
  rw [loopPass, frame, List.append_assoc, readExact_append (length_u32ToBeBytes _)]
  simp only [u32FromBeBytes_toBeBytes (show p.length < 2 ^ 32 by omega),
    if_neg (Nat.not_lt.mpr hp), readExact_append rfl, frame, List.append_assoc]

/-- On input that does not start with a whole frame the pass returns the loop's error, with
what `stopOn` leaves. -/
theorem loopPass_stop {t : List UInt8} (ht : NoFrame t) (st : σ) (written : List UInt8) :
    loopPass respond st t written = .inl ⟨st, written, (stopOn t).2, (stopOn t).1⟩ := by
  rw [loopPass, stopOn, readExact]
  by_cases h4 : 4 ≤ t.length
  · simp only [h4, if_true, Nat.not_lt.mpr h4, if_false]
    split_ifs with hlen
    · rfl
    · have hbody : (t.drop 4).length < u32FromBeBytes (t.take 4) := by
        rcases noFrame_iff.mp ht with h | h | h <;> omega
      simp only [readExact, if_neg (Nat.not_le.mpr hbody)]
  · simp [h4, Nat.lt_of_not_le h4]

/-- A pass reads four bytes at least, so more passes than bytes suffice, and the loop leaves
only with an error. -/
theorem handleLoop_ends (fuel : Nat) (st : σ) (input written : List UInt8)
    (h : input.length < fuel) :
    ∃ o, handleLoop respond fuel st input written = some o ∧ LoopError o.error := by
  induction fuel generalizing st input written with
  | zero => exact absurd h (Nat.not_lt_zero _)
  | succ fuel ih =>
    rw [handleLoop_succ]
    rcases noFrame_or_frame input with ht | ⟨p, u, hp, rfl⟩
    · rw [loopPass_stop respond ht]
      exact ⟨_, rfl, stopOn_loopError input⟩
    · rw [loopPass_frame respond hp]
      simp only [frame, List.length_append, length_u32ToBeBytes] at h
      exact ih _ _ _ (by omega)

/-- Whatever the peer sends and whatever the responses, a connection ends, and always with an
error: its input ends inside a frame, or a frame declares more than 1 MiB. -/
theorem handleConnection_ends (st : σ) (input : List UInt8) :
    ∃ o, handleConnection respond st input = some o ∧ LoopError o.error :=
  handleLoop_ends respond _ st input [] (Nat.lt_succ_self _)

/-! ## Frames parse one way -/

/-- The header of a frame gives its length, so a frame is read back whole. -/
theorem frame_append_inj {p q X Y : List UInt8} (hp : p.length < 2 ^ 32) (hq : q.length < 2 ^ 32)
    (h : frame p ++ X = frame q ++ Y) : p = q ∧ X = Y := by
  have hhead (r Z : List UInt8) : (frame r ++ Z).take 4 = (frame r).take 4 :=
    List.take_append_of_le_length (by simp [frame])
  have hlen : p.length = q.length := by
    rw [← frame_header hp, ← frame_header hq, ← hhead p X, ← hhead q Y, h]
  have hbody : p ++ X = q ++ Y := by
    simpa only [frame, List.append_assoc, List.drop_left' (length_u32ToBeBytes _)] using
      congrArg (List.drop 4) h
  exact List.append_inj hbody hlen

/-- Input made of frames of at most 1 MiB, then of input with no whole frame at its head, begins
with no other frames than its own: any frames read off its head are its first ones, and what
they leave is the rest of it. -/
theorem flatMap_frame_append_eq {ps qs : List (List UInt8)} {t u : List UInt8}
    (hps : ∀ p ∈ ps, p.length ≤ 1024 * 1024) (hqs : ∀ q ∈ qs, q.length ≤ 1024 * 1024)
    (ht : NoFrame t) (h : qs.flatMap frame ++ u = ps.flatMap frame ++ t) :
    qs.length ≤ ps.length ∧ qs = ps.take qs.length ∧
      u = (ps.drop qs.length).flatMap frame ++ t := by
  induction qs generalizing ps with
  | nil => exact ⟨Nat.zero_le _, rfl, h⟩
  | cons q qs ih =>
    have hq := hqs q (List.mem_cons_self _ _)
    rw [List.flatMap_cons, List.append_assoc] at h
    cases ps with
    | nil => exact absurd h.symm (ht q _ hq)
    | cons p ps =>
      have hp := hps p (List.mem_cons_self _ _)
      rw [List.flatMap_cons, List.append_assoc] at h
      obtain ⟨rfl, hrest⟩ := frame_append_inj (by omega) (by omega) h
      obtain ⟨hle, htake, hu⟩ := ih (fun p hp' => hps p (List.mem_cons_of_mem _ hp'))
        (fun q hq' => hqs q (List.mem_cons_of_mem _ hq')) hrest
      exact ⟨Nat.succ_le_succ hle, by rw [List.length_cons, List.take_succ_cons, ← htake], hu⟩

/-- Frames then input with no whole frame at its head parse one way only. -/
theorem flatMap_frame_noFrame_inj {ps qs : List (List UInt8)} {t u : List UInt8}
    (hps : ∀ p ∈ ps, p.length ≤ 1024 * 1024) (hqs : ∀ q ∈ qs, q.length ≤ 1024 * 1024)
    (ht : NoFrame t) (hu : NoFrame u) (h : qs.flatMap frame ++ u = ps.flatMap frame ++ t) :
    qs = ps ∧ u = t := by
  obtain ⟨-, htake, hrest⟩ := flatMap_frame_append_eq hps hqs ht h
  rcases hd : ps.drop qs.length with _ | ⟨p, ps'⟩
  · rw [hd] at hrest
    exact ⟨by rw [htake, List.take_of_length_le (List.drop_eq_nil_iff.mp hd)], hrest⟩
  · rw [hd, List.flatMap_cons, List.append_assoc] at hrest
    exact absurd hrest (hu p _ (hps p (List.mem_of_mem_drop (hd ▸ List.mem_cons_self p ps'))))

end RustCore.GeoSidecar
