import RustCore.GeoSidecar.RoutingTable
import RustCore.Word

/-!
# The connection table of the listeners

`start_tcp_listener` and `start_unix_listener` accept connections in a loop. An admitted
connection gets an id, `tcp:<peer address>` or `unix:<microseconds>`, which goes into
`active_connections` before a task is spawned to serve the connection; when the connection ends
the task removes its id. Admission compares `active_connections.len()` with `max_connections`.
A step (`Listeners.step`) is one accept of either loop, the end of a connection, or the removal
of its id by its task; `sweep` is the `retain` of `start_metrics_collector`. Both loops and the
collector are branches of one `tokio::select!`, so an accept checks and inserts with no other
accept or sweep in between; a task's removal only shrinks the table.

1. Whatever the peers, the tasks and the sweeps do, the table never holds more than
   `max_connections` entries (`len_le_maxConnections`).
2. But it need not count the connections: ids can collide. Two Unix accepts in one microsecond
   share an id, and a TCP peer address comes back once its socket is closed but before its task
   has removed the id. The table then counts fewer connections than there are, and admits more
   than `max_connections` (`listener_id_collisions`).
-/

namespace RustCore.GeoSidecar

/-- A TCP peer address. The listener is bound to `127.0.0.1`, so its peers are IPv4. -/
structure SocketAddrV4 where
  ip : BitVec 32
  port : UInt16
  deriving DecidableEq, Repr

/-- The `Display` of `SocketAddrV4`: `a.b.c.d:port`. -/
def SocketAddrV4.toString (a : SocketAddrV4) : String :=
  let octet (k : Nat) := Nat.repr (a.ip.toNat / 2 ^ (8 * k) % 256)
  octet 3 ++ "." ++ octet 2 ++ "." ++ octet 1 ++ "." ++ octet 0 ++ ":" ++ Nat.repr a.port.toNat

/-- `DashMap::len`. -/
def DashMap.len {K V : Type} (m : DashMap K V) : Nat := m.entries.length

/-- `DashMap::retain`: the entries for which `f` holds. -/
def DashMap.retain {K V : Type} (m : DashMap K V) (f : K → V → Bool) : DashMap K V :=
  ⟨m.entries.filter fun e => f e.1 e.2, m.nodupKeys.sublist (List.filter_sublist _)⟩

theorem DashMap.len_insert_le {K V : Type} [DecidableEq K] (m : DashMap K V) (k : K) (v : V) :
    DashMap.len (m.insert k v) ≤ m.len + 1 := by
  simp only [DashMap.len, AList.insert_entries, List.length_cons]
  exact Nat.succ_le_succ (List.kerase_sublist _ _).length_le

theorem DashMap.len_erase_le {K V : Type} [DecidableEq K] (m : DashMap K V) (k : K) :
    DashMap.len (m.erase k) ≤ m.len :=
  (List.kerase_sublist _ _).length_le

theorem DashMap.len_retain_le {K V : Type} (m : DashMap K V) (f : K → V → Bool) :
    (m.retain f).len ≤ m.len :=
  (List.filter_sublist _).length_le

/-- A spawned connection task: the id it removes at its end, the TCP peer, and whether its
socket is still open. -/
structure Connection where
  connectionId : String
  peer : Option SocketAddrV4
  socketOpen : Bool
  deriving DecidableEq, Repr

/-- `active_connections`, from id to the `SystemTime` of the accept, and the tasks not yet
ended. -/
structure Listeners where
  activeConnections : DashMap String UInt64
  connections : List Connection

namespace Listeners

/-- No connection yet. -/
def init : Listeners := ⟨∅, []⟩

/-- The body of both accept loops once a stream is accepted: reject it when the table is full,
else insert its id with the time `now` and spawn its task. -/
def acceptConnection (self : Listeners) (maxConnections : Nat) (connectionId : String)
    (peer : Option SocketAddrV4) (now : UInt64) : Listeners :=
  if self.activeConnections.len ≥ maxConnections then self
  else
    ⟨self.activeConnections.insert connectionId now,
      self.connections ++ [⟨connectionId, peer, true⟩]⟩

/-- One pass of the loop of `start_tcp_listener`. -/
def tcpAccept (self : Listeners) (maxConnections : Nat) (peerAddr : SocketAddrV4)
    (now : UInt64) : Listeners :=
  self.acceptConnection maxConnections ("tcp:" ++ peerAddr.toString) (some peerAddr) now

/-- One pass of the loop of `start_unix_listener`; `micros` is `current_timestamp_micros()`. -/
def unixAccept (self : Listeners) (maxConnections : Nat) (micros now : UInt64) : Listeners :=
  self.acceptConnection maxConnections ("unix:" ++ toString micros) none now

/-- `handle_connection` of connection `i` returns, and its stream is dropped. -/
def close (self : Listeners) (i : Nat) : Listeners :=
  match self.connections[i]? with
  | some c => { self with connections := self.connections.set i { c with socketOpen := false } }
  | none => self

/-- The task of connection `i` runs `active_connections.remove(&connection_id)` and ends. -/
def remove (self : Listeners) (i : Nat) : Listeners :=
  match self.connections[i]? with
  | some c => ⟨self.activeConnections.erase c.connectionId, self.connections.eraseIdx i⟩
  | none => self

/-- A step of the listeners and their tasks. -/
inductive Event
  | tcpAccept (peerAddr : SocketAddrV4) (now : UInt64)
  | unixAccept (micros now : UInt64)
  | close (i : Nat)
  | remove (i : Nat)
  deriving DecidableEq, Repr

def step (self : Listeners) (maxConnections : Nat) : Event → Listeners
  | .tcpAccept peerAddr now => self.tcpAccept maxConnections peerAddr now
  | .unixAccept micros now => self.unixAccept maxConnections micros now
  | .close i => self.close i
  | .remove i => self.remove i

/-- What the environment may do: a TCP peer is not the peer of an open socket, only an open
socket closes, and only a task whose socket has closed removes its id. -/
def Event.Allowed (s : Listeners) : Event → Prop
  | .tcpAccept peerAddr _ => ∀ c ∈ s.connections, c.socketOpen → c.peer ≠ some peerAddr
  | .unixAccept _ _ => True
  | .close i => s.connections[i]?.map (·.socketOpen) = some true
  | .remove i => s.connections[i]?.map (·.socketOpen) = some false

instance Event.decidableAllowed (s : Listeners) : (e : Event) → Decidable (e.Allowed s)
  | .tcpAccept peerAddr _ =>
    inferInstanceAs (Decidable (∀ c ∈ s.connections, c.socketOpen → c.peer ≠ some peerAddr))
  | .unixAccept _ _ => inferInstanceAs (Decidable True)
  | .close i => inferInstanceAs (Decidable (s.connections[i]?.map (·.socketOpen) = some true))
  | .remove i => inferInstanceAs (Decidable (s.connections[i]?.map (·.socketOpen) = some false))

/-- The states the listeners reach. -/
inductive Reachable (maxConnections : Nat) : Listeners → Prop
  | init : Reachable maxConnections init
  | step {s : Listeners} {e : Event} :
    Reachable maxConnections s → e.Allowed s → Reachable maxConnections (s.step maxConnections e)

def run (s : Listeners) (maxConnections : Nat) (es : List Event) : Listeners :=
  es.foldl (fun s e => s.step maxConnections e) s

/-- The ids of the connections not yet removed. -/
def ids (s : Listeners) : List String := s.connections.map (·.connectionId)

/-! ## The size of the table -/

/-- The sweep of `start_metrics_collector`:
`active_connections.retain(|_, connected_at| now.duration_since(connected_at).map_or(false, |d|
d.as_secs() < 300))`, a `SystemTime` being nanoseconds since the epoch. An entry stays while it
is less than five minutes old; one stamped after `now` goes, as `duration_since` fails. -/
def sweep (self : Listeners) (now : UInt64) : Listeners :=
  { self with
    activeConnections := self.activeConnections.retain fun _ connectedAt =>
      decide (connectedAt ≤ now) && decide ((now - connectedAt).toNat / 10 ^ 9 < 300) }

/-- What touches `active_connections`: a step of the listeners and of the connection tasks, or
a tick of `start_metrics_collector` at `now`. -/
inductive Action
  | event (e : Event)
  | sweep (now : UInt64)
  deriving DecidableEq, Repr

def act (self : Listeners) (maxConnections : Nat) : Action → Listeners
  | .event e => self.step maxConnections e
  | .sweep now => self.sweep now

def actAll (self : Listeners) (maxConnections : Nat) (as : List Action) : Listeners :=
  as.foldl (fun s a => s.act maxConnections a) self

variable {s : Listeners} {maxConnections : Nat}

/-- An accept inserts only below the limit; every other action keeps or shrinks the table. -/
theorem len_act_le (hs : s.activeConnections.len ≤ maxConnections) (a : Action) :
    (s.act maxConnections a).activeConnections.len ≤ maxConnections := by
  have haccept (id : String) (peer : Option SocketAddrV4) (now : UInt64) :
      (s.acceptConnection maxConnections id peer now).activeConnections.len ≤ maxConnections := by
    unfold acceptConnection
    split_ifs with hfull
    · exact hs
    · have := DashMap.len_insert_le s.activeConnections id now
      simp only at this ⊢
      omega
  rcases a with ((peerAddr | micros | i | i) | now)
  · exact haccept _ _ _
  · exact haccept _ _ _
  · simp only [act, step, close]; split <;> exact hs
  · simp only [act, step, remove]; split
    · exact Nat.le_trans (DashMap.len_erase_le _ _) hs
    · exact hs
  · exact Nat.le_trans (DashMap.len_retain_le _ _) hs

/-- Whatever the peers, the connection tasks and the sweeps do, and even when ids collide,
`active_connections` never holds more than `max_connections` entries. -/
theorem len_le_maxConnections (maxConnections : Nat) (as : List Action) :
    (init.actAll maxConnections as).activeConnections.len ≤ maxConnections := by
  suffices ∀ s : Listeners, s.activeConnections.len ≤ maxConnections →
      (s.actAll maxConnections as).activeConnections.len ≤ maxConnections from
    this init (Nat.zero_le _)
  induction as with
  | nil => exact fun _ hs => hs
  | cons a as ih => exact fun s hs => ih _ (len_act_le hs a)

/-! ## Colliding ids -/

/-- With `max_connections = 2`: two Unix accepts in the same microsecond are both admitted
under one id, the table holds one entry, and a third accept is admitted as well. Separately,
a TCP peer whose socket has closed connects again before the first task removes its id: that
removal takes the id of the live second connection out of the table. -/
theorem listener_id_collisions :
    let peer : SocketAddrV4 := ⟨0x7f000001, 40000⟩
    let s₁ := init.run 2 [.unixAccept 7 0, .unixAccept 7 0, .unixAccept 8 0]
    let s₂ := init.run 2 [.tcpAccept peer 0, .close 0, .tcpAccept peer 0, .remove 0]
    (Reachable 2 s₁ ∧ s₁.ids = ["unix:7", "unix:7", "unix:8"] ∧
      s₁.activeConnections.len = 2 ∧ 2 < s₁.connections.length) ∧
    (Reachable 2 s₂ ∧ s₂.ids = ["tcp:127.0.0.1:40000"] ∧ s₂.activeConnections.len = 0) := by
  intro peer s₁ s₂
  have h₁ : Reachable 2 s₁ :=
    .step (e := .unixAccept 8 0) (.step (e := .unixAccept 7 0)
      (.step (e := .unixAccept 7 0) .init trivial) trivial) trivial
  have h₂ : Reachable 2 s₂ :=
    .step (e := .remove 0) (.step (e := .tcpAccept peer 0) (.step (e := .close 0)
      (.step (e := .tcpAccept peer 0) .init (by decide)) (by decide)) (by decide)) (by decide)
  exact ⟨⟨h₁, by decide, by decide, by decide⟩, ⟨h₂, by decide, by decide⟩⟩

end Listeners

end RustCore.GeoSidecar
