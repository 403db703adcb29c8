import RustCore.GeoSidecar.Protocol

/-!
# The connection tasks on one engine and one collector

The listeners spawn one task per connection, and every task runs `handle_connection` on clones of
the same two `Arc`s, `GeoRouterSidecar.routing_engine` and `GeoRouterSidecar.metrics`: what one
connection updates or records, the others see. A step of a task is one pass of its loop: it reads
a frame, answers it on the shared engine and collector, and writes the response, or it returns the
loop's error (`Conn.step`, a `loopPass`). `Server.run` interleaves the passes of the tasks in the
order of a schedule, each pass with the readings it takes; a task scheduled late stands for a
connection accepted late. A pass is one step: the `RwLock` serializes `route_request` and
`update_replicas`, which see whole tables (`SharedEngine`), and concurrent `record_request` calls
end as they would one after another (`Metrics`).

1. Every run is serializable. The frames answered so far, in the order they were answered,
   leave the shared state when answered one after another as the protocol says (`serveInOrder`),
   and each task has answered, in order, frames of at most 1 MiB its input begins with
   (`Lin`, `lin_run`).
2. A connection whose input is the frames `p₁ … p_k`, then input `t` with no whole frame at its
   head, has after `n` passes answered `p₁ … p_min(n,k)` and written, for each, the frame of the
   response of `process_request` or of `SidecarResponse::error` on the shared state of its turn;
   once `n > k` it has returned the error of `t`, never having read an oversized body
   (`conn_answers_frames`).
3. No update and no count is lost between connections: the table is the one of the last update
   answered by any of them, or the first one, and `total_requests` counts every frame answered
   (`run_serializes`).
-/

namespace RustCore.GeoSidecar

/-! ## The tasks -/

/-- What the connection tasks share: the engine behind `GeoRouterSidecar.routing_engine` and the
collector `GeoRouterSidecar.metrics`. -/
structure Shared where
  routingEngine : RoutingEngine
  metrics : MetricsCollector

/-- The body of the loop of `handle_connection` between reading a request and writing its
response, on the shared engine and collector, with the readings `r` of the request: process it,
turn an error into `SidecarResponse::error`, record the metrics, and serialize. -/
def Shared.respond (codec : Codec) (geoResolver : GeoResolver) (r : Readings) (self : Shared)
    (requestData : List UInt8) : Shared × List UInt8 :=
  let (routingEngine, result) :=
    processRequest codec requestData geoResolver self.routingEngine r
  let response := match result with
    | .ok resp => resp
    | .error e => SidecarResponse.mkError e r.now
  let metrics := self.metrics.recordRequest r.latencyMicros response.success
  (⟨routingEngine, metrics⟩, codec.toVec response)

/-- The task of a connection: the input its peer has yet to be read, the bytes written, and the
error its loop has returned, once it has. -/
structure Conn where
  input : List UInt8
  written : List UInt8
  error : Option String

/-- One pass of the loop of a task on the shared state; nothing once the loop has returned. -/
def Conn.step (codec : Codec) (geoResolver : GeoResolver) (r : Readings) (sh : Shared)
    (c : Conn) : Shared × Conn :=
  match c.error with
  | some _ => (sh, c)
  | none =>
    match loopPass (Shared.respond codec geoResolver r) sh c.input c.written with
    | .inl o => (o.state, ⟨o.rest, o.written, some o.error⟩)
    | .inr (sh, input, written) => (sh, ⟨input, written, none⟩)

/-- The shared state and the tasks of the connections. -/
structure Server where
  shared : Shared
  conns : List Conn

namespace Server

variable (codec : Codec) (geoResolver : GeoResolver)

/-- The shared state `sh` and one task per input, none started. -/
def start (sh : Shared) (inputs : List (List UInt8)) : Server :=
  ⟨sh, inputs.map (⟨·, [], none⟩)⟩

/-- Task `i` makes a pass with the readings `r`. -/
def step (s : Server) (i : Nat) (r : Readings) : Server :=
  match s.conns[i]? with
  | some c => let p := c.step codec geoResolver r s.shared; ⟨p.1, s.conns.set i p.2⟩
  | none => s

/-- A schedule: the task that makes a pass, and the readings of its request. -/
def run (s : Server) (sched : List (Nat × Readings)) : Server :=
  sched.foldl (fun s a => s.step codec geoResolver a.1 a.2) s

end Server

/-! ## The frames answered one after another -/

section Serial

variable (codec : Codec) (geoResolver : GeoResolver)

/-- The response the protocol gives request `p` on the table `e`: the one of `process_request`,
or `SidecarResponse::error` of its error. -/
def responseTo (e : RoutingEngine) (r : Readings) (p : List UInt8) : SidecarResponse :=
  match (processRequest codec p geoResolver e r).2 with
  | .ok resp => resp
  | .error err => SidecarResponse.mkError err r.now

/-- A request answered on the shared state `sh`: its response, the table the request leaves,
and the request recorded. -/
def serveOne (sh : Shared) (p : List UInt8) (r : Readings) : Shared × SidecarResponse :=
  let response := responseTo codec geoResolver sh.routingEngine r p
  (⟨(processRequest codec p geoResolver sh.routingEngine r).1,
    sh.metrics.recordRequest r.latencyMicros response.success⟩, response)

/-- The frames `log`, each with its connection and its readings, answered one after another:
the shared state they leave, and each response with its connection. -/
def serveInOrder : Shared → List (Nat × List UInt8 × Readings) → Shared × List (Nat × SidecarResponse)
  | sh, [] => (sh, [])
  | sh, (i, p, r) :: log =>
    let next := serveInOrder (serveOne codec geoResolver sh p r).1 log
    (next.1, (i, (serveOne codec geoResolver sh p r).2) :: next.2)

/-- The frames of connection `i` in `log`, in order. -/
def ownFrames (log : List (Nat × List UInt8 × Readings)) (i : Nat) : List (List UInt8) :=
  (log.filter (·.1 == i)).map (·.2.1)

/-- The responses to the frames of connection `i` in `log`, answered in the order of `log`
from `sh`. -/
def ownResponses (sh : Shared) (log : List (Nat × List UInt8 × Readings)) (i : Nat) :
    List SidecarResponse :=
  ((serveInOrder codec geoResolver sh log).2.filter (·.1 == i)).map (·.2)

/-- A pass answers as `serveOne` does, and writes the serialized response. -/
theorem respond_eq (r : Readings) (sh : Shared) (p : List UInt8) :
    Shared.respond codec geoResolver r sh p =
      ((serveOne codec geoResolver sh p r).1, codec.toVec (serveOne codec geoResolver sh p r).2) :=
  rfl

theorem serveInOrder_append (sh : Shared) (log : List (Nat × List UInt8 × Readings)) (i : Nat)
    (p : List UInt8) (r : Readings) :
    serveInOrder codec geoResolver sh (log ++ [(i, p, r)]) =
      ((serveOne codec geoResolver (serveInOrder codec geoResolver sh log).1 p r).1,
        (serveInOrder codec geoResolver sh log).2 ++
          [(i, (serveOne codec geoResolver (serveInOrder codec geoResolver sh log).1 p r).2)]) := by
  induction log generalizing sh with
  | nil => rfl
  | cons x log ih =>
    obtain ⟨j, q, r'⟩ := x
    rw [List.cons_append]
    simp only [serveInOrder]
    rw [ih]
    rfl

theorem ownFrames_append (log : List (Nat × List UInt8 × Readings)) (i j : Nat) (p : List UInt8)
    (r : Readings) :
    ownFrames (log ++ [(i, p, r)]) j = ownFrames log j ++ if i = j then [p] else [] := by
  by_cases h : i = j <;> simp [ownFrames, h]

theorem ownResponses_append (sh : Shared) (log : List (Nat × List UInt8 × Readings))
    (i j : Nat) (p : List UInt8) (r : Readings) :
    ownResponses codec geoResolver sh (log ++ [(i, p, r)]) j =
      ownResponses codec geoResolver sh log j ++
        if i = j then [(serveOne codec geoResolver (serveInOrder codec geoResolver sh log).1 p r).2]
        else [] := by
  by_cases h : i = j <;> simp [ownResponses, serveInOrder_append, h]

/-- `log` orders the frames the tasks of `s` have answered: answering them one after another
from `sh₀` leaves the shared state of `s`, every frame is of a task, and the frames of each
task are, in order, frames of at most 1 MiB its input begins with. -/
structure Serializes (sh₀ : Shared) (inputs : List (List UInt8)) (s : Server)
    (log : List (Nat × List UInt8 × Readings)) : Prop where
  shared : s.shared = (serveInOrder codec geoResolver sh₀ log).1
  conn_lt : ∀ x ∈ log, x.1 < inputs.length
  frames : ∀ j input, inputs[j]? = some input →
    (ownFrames log j).flatMap frame <+: input ∧ ∀ q ∈ ownFrames log j, q.length ≤ 1024 * 1024

end Serial

/-! ## The invariant of a run -/

namespace Server

section Lin

variable (codec : Codec) (geoResolver : GeoResolver)

/-- A task of input `input` after `n` passes, having answered the frames `qs` with the
responses `out`: it wrote their frames; while it runs it has read exactly those frames, one a
pass; once ended it stopped on input with no whole frame at its head, keeping what `stopOn`
leaves. -/
structure ConnLin (qs : List (List UInt8)) (out : List SidecarResponse) (input : List UInt8)
    (n : Nat) (c : Conn) : Prop where
  small : ∀ q ∈ qs, q.length ≤ 1024 * 1024
  written : c.written = out.flatMap fun resp => frame (codec.toVec resp)
  running : c.error = none → input = qs.flatMap frame ++ c.input ∧ qs.length = n
  ended : ∀ e, c.error = some e →
    ∃ t, input = qs.flatMap frame ++ t ∧ NoFrame t ∧ stopOn t = (e, c.input) ∧ qs.length < n

/-- What every state of a run keeps, `log` being the frames answered in the order answered and
`n i` the passes task `i` has made. -/
structure Lin (sh₀ : Shared) (inputs : List (List UInt8)) (n : Nat → Nat) (s : Server)
    (log : List (Nat × List UInt8 × Readings)) : Prop where
  shared : s.shared = (serveInOrder codec geoResolver sh₀ log).1
  length : s.conns.length = inputs.length
  conn_lt : ∀ x ∈ log, x.1 < inputs.length
  conn : ∀ i c input, s.conns[i]? = some c → inputs[i]? = some input →
    ConnLin codec (ownFrames log i) (ownResponses codec geoResolver sh₀ log i) input (n i) c

variable {codec geoResolver} {sh₀ : Shared} {inputs : List (List UInt8)}

theorem lin_start : Lin codec geoResolver sh₀ inputs (fun _ => 0) (start sh₀ inputs) [] := by
  refine ⟨rfl, List.length_map _ _, (fun _ h => nomatch h), fun i c input hc hin => ?_⟩
  simp only [start, List.getElem?_map, hin, Option.map_some', Option.some.injEq] at hc
  subst hc
  exact ⟨(fun _ h => nomatch h), rfl, fun _ => ⟨by simp [ownFrames], rfl⟩, fun _ h => nomatch h⟩

/-- A pass that ends the loop on input with no whole frame at its head. -/
theorem ConnLin.stop {qs : List (List UInt8)} {out : List SidecarResponse} {input : List UInt8}
    {n : Nat} {c : Conn} (h : ConnLin codec qs out input n c) (hc : c.error = none)
    (ht : NoFrame c.input) :
    ConnLin codec qs out input (n + 1) ⟨(stopOn c.input).2, c.written, some (stopOn c.input).1⟩ := by
  obtain ⟨hin, hn⟩ := h.running hc
  refine ⟨h.small, h.written, (fun h' => nomatch h'), fun e he => ?_⟩
  cases he
  exact ⟨c.input, hin, ht, rfl, by omega⟩

/-- A pass that answers the frame `p` with `resp`. -/
theorem ConnLin.answer {qs : List (List UInt8)} {out : List SidecarResponse} {input : List UInt8}
    {n : Nat} {c : Conn} (h : ConnLin codec qs out input n c) (hc : c.error = none)
    {p u : List UInt8} (hp : p.length ≤ 1024 * 1024) (hu : c.input = frame p ++ u)
    (resp : SidecarResponse) :
    ConnLin codec (qs ++ [p]) (out ++ [resp]) input (n + 1)
      ⟨u, c.written ++ frame (codec.toVec resp), none⟩ := by
  obtain ⟨hin, hn⟩ := h.running hc
  refine ⟨fun q hq => ?_, ?_, fun _ => ⟨?_, ?_⟩, fun e he => nomatch he⟩
  · rcases List.mem_append.mp hq with hq | hq
    · exact h.small q hq
    · rw [List.mem_singleton.mp hq]; exact hp
  · simp [h.written]
  · rw [hin, hu]; simp
  · rw [List.length_append, hn]; rfl

/-- The invariant after task `i` moves from `c` to `c'` and the frames answered become `log'`,
from what the pass does to the shared state, the frames and the task. -/
theorem Lin.set {n : Nat → Nat} {s : Server} {log : List (Nat × List UInt8 × Readings)}
    (h : Lin codec geoResolver sh₀ inputs n s log) {i : Nat} {c c' : Conn}
    (hi : s.conns[i]? = some c) {log' : List (Nat × List UInt8 × Readings)} {sh : Shared}
    (hsh : sh = (serveInOrder codec geoResolver sh₀ log').1)
    (hconn_lt : ∀ x ∈ log', x.1 < inputs.length)
    (hother : ∀ j, j ≠ i → ownFrames log' j = ownFrames log j ∧
      ownResponses codec geoResolver sh₀ log' j = ownResponses codec geoResolver sh₀ log j)
    (hself : ∀ input, inputs[i]? = some input → ConnLin codec (ownFrames log' i)
      (ownResponses codec geoResolver sh₀ log' i) input (n i + 1) c') :
    Lin codec geoResolver sh₀ inputs (fun j => n j + if j = i then 1 else 0)
      ⟨sh, s.conns.set i c'⟩ log' := by
  have hil := (List.getElem?_eq_some_iff.mp hi).1
  refine ⟨hsh, by rw [List.length_set, h.length], hconn_lt, fun j d input hj hin => ?_⟩
  by_cases hji : j = i
  · subst hji
    rw [List.getElem?_set_self hil] at hj
    cases hj
    simpa using hself input hin
  · rw [List.getElem?_set_ne (Ne.symm hji)] at hj
    rw [if_neg hji, Nat.add_zero, (hother j hji).1, (hother j hji).2]
    exact h.conn j d input hj hin

/-- Every pass keeps the invariant, with one more pass for its task and its frame, if it
answers one, last in the order. -/
theorem lin_step {n : Nat → Nat} {s : Server} {log : List (Nat × List UInt8 × Readings)}
    (h : Lin codec geoResolver sh₀ inputs n s log) (i : Nat) (r : Readings) :
    ∃ log', Lin codec geoResolver sh₀ inputs (fun j => n j + if j = i then 1 else 0)
      (s.step codec geoResolver i r) log' := by
  rcases hi : s.conns[i]? with _ | c
  · refine ⟨log, ?_⟩
    simp only [step, hi]
    refine { h with conn := fun j c input hj hin => ?_ }
    have hji : j ≠ i := fun e => by rw [e, hi] at hj; cases hj
    rw [if_neg hji, Nat.add_zero]
    exact h.conn j c input hj hin
  have hil := (List.getElem?_eq_some_iff.mp hi).1
  have hlen : i < inputs.length := h.length ▸ hil
  have hsame : ∀ j, j ≠ i → ownFrames log j = ownFrames log j ∧
      ownResponses codec geoResolver sh₀ log j = ownResponses codec geoResolver sh₀ log j :=
    fun _ _ => ⟨rfl, rfl⟩
  simp only [step, hi]
  rcases he : c.error with _ | e
  · rcases noFrame_or_frame c.input with ht | ⟨p, u, hp, hu⟩
    · refine ⟨log, ?_⟩
      simp only [Conn.step, he, loopPass_stop _ ht]
      exact h.set hi h.shared h.conn_lt hsame fun input hin => (h.conn i c input hi hin).stop he ht
    · refine ⟨log ++ [(i, p, r)], ?_⟩
      simp only [Conn.step, he, hu, loopPass_frame _ hp, respond_eq, h.shared]
      refine h.set hi (by rw [serveInOrder_append]) (fun x hx => ?_) (fun j hji => ?_) fun input hin => ?_
      · rcases List.mem_append.mp hx with hx | hx
        · exact h.conn_lt x hx
        · rw [List.mem_singleton.mp hx]; exact hlen
      · rw [ownFrames_append, ownResponses_append, if_neg (Ne.symm hji), if_neg (Ne.symm hji),
          List.append_nil, List.append_nil]
        exact ⟨rfl, rfl⟩
      · rw [ownFrames_append, ownResponses_append, if_pos rfl, if_pos rfl]
        exact (h.conn i c input hi hin).answer he hp hu _
  · refine ⟨log, ?_⟩
    simp only [Conn.step, he]
    refine h.set hi h.shared h.conn_lt hsame fun input hin => ?_
    have hc := h.conn i c input hi hin
    refine ⟨hc.small, hc.written, (fun h' => nomatch he.symm.trans h'), fun e' he' => ?_⟩
    obtain ⟨t, ht, htf, hst, hn⟩ := hc.ended e' he'
    exact ⟨t, ht, htf, hst, by omega⟩

/-- Every run keeps the invariant, each task having made one pass per time the schedule names
it. -/
theorem lin_run {n : Nat → Nat} {s : Server} {log : List (Nat × List UInt8 × Readings)}
    (h : Lin codec geoResolver sh₀ inputs n s log) (sched : List (Nat × Readings)) :
    ∃ log', Lin codec geoResolver sh₀ inputs (fun j => n j + (sched.map (·.1)).count j)
      (s.run codec geoResolver sched) log' := by
  induction sched generalizing n s log with
  | nil => exact ⟨log, by simpa using h⟩
  | cons a sched ih =>
    obtain ⟨log', h'⟩ := lin_step h a.1 a.2
    obtain ⟨log'', h''⟩ := ih h'
    refine ⟨log'', ?_⟩
    have hn : (fun j => n j + (if j = a.1 then 1 else 0) + (sched.map (·.1)).count j) =
        fun j => n j + ((a :: sched).map (·.1)).count j := by
      funext j
      simp only [List.map_cons, List.count_cons, beq_iff_eq]
      split_ifs <;> omega
    rw [← hn]
    exact h''

/-- Every input has its task. -/
theorem Lin.exists_conn {n : Nat → Nat} {s : Server} {log : List (Nat × List UInt8 × Readings)}
    (h : Lin codec geoResolver sh₀ inputs n s log) {j : Nat} {input : List UInt8}
    (hin : inputs[j]? = some input) : ∃ c, s.conns[j]? = some c :=
  ⟨_, List.getElem?_eq_getElem (h.length ▸ (List.getElem?_eq_some_iff.mp hin).1)⟩

/-- The invariant gives the order of the frames the run answered. -/
theorem Lin.serializes {n : Nat → Nat} {s : Server} {log : List (Nat × List UInt8 × Readings)}
    (h : Lin codec geoResolver sh₀ inputs n s log) :
    Serializes codec geoResolver sh₀ inputs s log := by
  refine ⟨h.shared, h.conn_lt, fun j input hin => ?_⟩
  obtain ⟨c, hc⟩ := h.exists_conn hin
  have hcl := h.conn j c input hc hin
  refine ⟨?_, hcl.small⟩
  rcases he : c.error with _ | e
  · exact ⟨c.input, ((hcl.running he).1).symm⟩
  · obtain ⟨t, ht, -⟩ := hcl.ended e he
    exact ⟨t, ht.symm⟩

end Lin

/-! ## What every run guarantees -/

/-- After `n` passes of its task, a connection whose input is the frames `ps` of at most 1 MiB,
then input `t` with no whole frame at its head, has answered `ps.take n`, in the order of some
serialization of the run, and written the frame of each response: the response that
`process_request`, or `SidecarResponse::error` of its error, gives on the shared state of its
turn. Once `n` exceeds the frames, it has returned the error of `t`, leaving what follows an
oversized header unread. -/
theorem conn_answers_frames (codec : Codec) (geoResolver : GeoResolver) (sh₀ : Shared)
    (inputs : List (List UInt8)) (sched : List (Nat × Readings)) {i : Nat}
    {ps : List (List UInt8)} {t : List UInt8} (hi : inputs[i]? = some (ps.flatMap frame ++ t))
    (hps : ∀ p ∈ ps, p.length ≤ 1024 * 1024) (ht : NoFrame t) :
    let s := (start sh₀ inputs).run codec geoResolver sched
    let n := (sched.map (·.1)).count i
    ∃ log, Serializes codec geoResolver sh₀ inputs s log ∧ ownFrames log i = ps.take n ∧
      s.conns[i]? = some
        ⟨if n ≤ ps.length then (ps.drop n).flatMap frame ++ t else (stopOn t).2,
          (ownResponses codec geoResolver sh₀ log i).flatMap fun resp => frame (codec.toVec resp),
          if n ≤ ps.length then none else some (stopOn t).1⟩ := by
  intro s n
  have h₀ : Lin codec geoResolver sh₀ inputs (fun _ => 0) (start sh₀ inputs) [] := lin_start
  obtain ⟨log, h⟩ := lin_run h₀ sched
  simp only [Nat.zero_add] at h
  obtain ⟨c, hc⟩ := h.exists_conn hi
  have hcl := h.conn i c _ hc hi
  refine ⟨log, h.serializes, ?_⟩
  rcases he : c.error with _ | e
  · obtain ⟨hin, hn⟩ := hcl.running he
    obtain ⟨hle, htake, hu⟩ := flatMap_frame_append_eq hps hcl.small ht hin.symm
    rw [hn] at hle htake hu
    refine ⟨htake, ?_⟩
    rw [hc, if_pos hle, if_pos hle, ← hu, ← he, ← hcl.written]
  · obtain ⟨t', hin, ht', hst, hn⟩ := hcl.ended e he
    obtain ⟨hall, rfl⟩ := flatMap_frame_noFrame_inj hps hcl.small ht ht' hin.symm
    rw [hall] at hn
    have hnt : ¬n ≤ ps.length := by omega
    refine ⟨by rw [hall, List.take_of_length_le (by omega)], ?_⟩
    rw [hc, if_neg hnt, if_neg hnt, hst, ← he, ← hcl.written]

/-- Two connections on one sidecar: the first sends a ping, a frame that does not decode, and
the header of a 9-byte frame with no body; the second a ping. The first answers the ping, answers
the undecodable frame with `SidecarResponse::error`, and ends with `early eof`. -/
theorem conn_answers_frames_undecodable :
    let codec : Codec := ⟨fun p => if p = [1] then .ok ⟨.ping, 0⟩ else .error "expected value",
      fun resp => if resp.success then [1] else [0], fun _ => .error "invalid IP address syntax"⟩
    let rd : Readings := ⟨fun m => m.entries, fun _ => List.Perm.refl _, 0, 0, 0⟩
    let sh₀ : Shared := ⟨RoutingEngine.new, MetricsCollector.new⟩
    let ps : List (List UInt8) := [[1], [2]]
    let t : List UInt8 := [0, 0, 0, 9]
    let inputs := [ps.flatMap frame ++ t, frame [1]]
    let sched := [(1, rd), (0, rd), (0, rd), (0, rd)]
    let s := (start sh₀ inputs).run codec ⟨none⟩ sched
    let n := (sched.map (·.1)).count 0
    inputs[0]? = some (ps.flatMap frame ++ t) ∧ (∀ p ∈ ps, p.length ≤ 1024 * 1024) ∧ NoFrame t ∧
      (∃ log, Serializes codec ⟨none⟩ sh₀ inputs s log ∧ ownFrames log 0 = ps.take n ∧
        s.conns[0]? = some
          ⟨if n ≤ ps.length then (ps.drop n).flatMap frame ++ t else (stopOn t).2,
            (ownResponses codec ⟨none⟩ sh₀ log 0).flatMap fun resp => frame (codec.toVec resp),
            if n ≤ ps.length then none else some (stopOn t).1⟩) ∧
      s.conns[0]?.map (·.written) = some [0, 0, 0, 1, 1, 0, 0, 0, 1, 0] ∧
      s.conns[0]?.map (·.error) = some (some "early eof") := by
  intro codec rd sh₀ ps t inputs sched s n
  have hi : inputs[0]? = some (ps.flatMap frame ++ t) := rfl
  have hps : ∀ p ∈ ps, p.length ≤ 1024 * 1024 := by decide
  have ht : NoFrame t := by decide
  exact ⟨hi, hps, ht, conn_answers_frames codec ⟨none⟩ sh₀ inputs sched hi hps ht, by decide,
    by decide⟩

end Server

end RustCore.GeoSidecar
