/-
  LoRa nodes: how they are provisioned, and how the mesh reads their frames.

  1. **Provisioning** (`lora_provisioning.rs`) — each call of `start` spawns a task.  While provisioning is
     active, the task locks the radio, waits for a frame, and for a join request makes a session key and an
     entry in the map `nodes`; then it locks the radio AGAIN, to send the join accept.  The first guard is
     a temporary of the `if let`, which keeps it to the end of its body: the task waits for itself.

  2. **The mesh** (`mesh.rs`, `node_registry.rs`) — a sensor frame is accepted if its node stands in the
     aggregator's own `NodeRegistry` and the four-byte code at its end is right under the key found
     there.  The registry is locked with `blocking_lock`, which panics inside the runtime; the
     aggregator's task runs inside.

  3. **No join accept (`Inv`)** — whoever is at work with the radio holds its lock, so nobody ever gets to
     send.  `provisioned_decodes` is about nodes that have received a join accept: there are none.

  4. **Two registries (`Registered`)** — nothing carries an entry from the one map to the other.  What the
     mesh knows was put there by `NodeRegistry::register`, and nothing else was.
-/
import Mathlib.Data.List.AList
import FloatProtocols.Lib.Exec
import FloatProtocols.Lib.Trace
import FloatProtocols.Protocol

namespace FloatProtocols

open Wire

namespace LoRa

/-- The libraries behind the two components. -/
structure Libs where
  /-- HMAC-SHA256 of a key and a byte string. -/
  hmac : Bytes → Bytes → Arr 32
  /-- `String::from_utf8_lossy`. -/
  fromUtf8Lossy : Bytes → String

/-- `LoRaFrame`. -/
structure LoRaFrame where
  data : Bytes

/-- `LoRaNode`, of either module. -/
structure LoRaNode where
  nodeId : UInt32
  sessionKey : Arr 16
  lastSeen : UInt64
  sensorType : String

/-! ## Provisioning -/

/-- `ProvisioningError`. -/
inductive ProvisioningError where
  | invalidFrame

/-- `JoinRequest`. -/
structure JoinRequest where
  nodeId : UInt32
  sensorType : String

/-- `parse_join_request`. -/
def parseJoinRequest (libs : Libs) (frame : LoRaFrame) : Exec ProvisioningError JoinRequest :=
  if frame.data.length < 8 then .err .invalidFrame
  else do
    let nodeId ← Exec.indices frame.data [0, 1, 2, 3]
    let sensorTypeLen ← Exec.index frame.data 4
    if frame.data.length < 5 + sensorTypeLen.toNat then .err .invalidFrame
    else do
      let sensorType ← Exec.slice frame.data 5 (5 + sensorTypeLen.toNat)
      .ok { nodeId := ofU32Be nodeId, sensorType := libs.fromUtf8Lossy sensorType }

/-- `build_join_accept`. -/
def buildJoinAccept (node : LoRaNode) : Bytes := u32Be node.nodeId ++ node.sessionKey.val

/-! ## The mesh -/

/-- `NodeRegistry`, and the map of `LoRaProvisioningMode`. -/
abbrev Nodes := AList fun _ : UInt32 => LoRaNode

/-- The node a sensor frame names. -/
def LoRaFrame.nodeId (frame : LoRaFrame) : UInt32 := ofU32Be (window frame.data 0 4)

/-- Where a task that `LoRaProvisioningMode::start` has spawned stands. -/
inductive Pc where
  | ended
  | check
  | lock
  | receive
  | insert (entry : LoRaNode)
  | lockAgain (entry : LoRaNode)
  | transmit (entry : LoRaNode)
  | sleep

/-- What a turn of a task hears from outside: what `rx_packet` returned, the generated key, the clock, and
    whether a frame that is sent reaches its node. -/
structure Env where
  heard : Option LoRaFrame
  sessionKey : Arr 16
  now : UInt64
  delivered : Bool

/-- Both components: `n` places for tasks, the task that holds the radio's lock, the map of
    `LoRaProvisioningMode`, the registry of the mesh, and the join accepts that have reached their nodes. -/
structure Mesh (n : Nat) where
  active : Bool
  task : Fin n → Pc
  radio : Option (Fin n)
  nodes : Nodes
  registry : Nodes
  accepts : List Bytes

variable {n : Nat}

/-- As the application sets them up: two new, empty maps. -/
def Mesh.new (n : Nat) : Mesh n where
  active := false
  task _ := .ended
  radio := none
  nodes := ∅
  registry := ∅
  accepts := []

/-- A task goes on. -/
def Mesh.goto (s : Mesh n) (k : Fin n) (pc : Pc) : Mesh n := { s with task := Function.update s.task k pc }

/-- The `if let` over, its guard is dropped. -/
def Mesh.release (s : Mesh n) (k : Fin n) : Mesh n := { s with radio := none }.goto k .sleep

/-- `lr1121.lock().await`: the lock is not reentrant, whoever holds it. -/
def Mesh.lockRadio (s : Mesh n) (k : Fin n) (pc : Pc) : Option (Mesh n) :=
  match s.radio with
  | none => some ({ s with radio := some k }.goto k pc)
  | some _ => none

/-- The loop of `LoRaProvisioningMode::start`, from one lock or wait to the next. -/
def Mesh.turn (libs : Libs) (s : Mesh n) (k : Fin n) (env : Env) : Option (Mesh n) :=
  match s.task k with
  | .ended => none
  | .check => some (s.goto k (if s.active then .lock else .ended))
  | .lock => s.lockRadio k .receive
  | .receive =>
    match env.heard with
    | none => some (s.release k)
    | some frame =>
      match parseJoinRequest libs frame with
      | .ok node => some (s.goto k (.insert ⟨node.nodeId, env.sessionKey, env.now, node.sensorType⟩))
      | .err _ => some (s.release k)
      | .panic => none
  | .insert entry =>
    some ({ s with nodes := s.nodes.insert entry.nodeId entry }.goto k (.lockAgain entry))
  -- the guard of the first lock is a temporary of the `if let`, and still there
  | .lockAgain entry => s.lockRadio k (.transmit entry)
  | .transmit entry =>
    let sent := if env.delivered then [buildJoinAccept entry] else []
    some ({ s with accepts := s.accepts ++ sent }.release k)
  | .sleep => some (s.goto k .check)

/-- What can happen: provisioning on and off, a turn of one of its tasks, a frame received by the mesh, an
    entry removed from the provisioning map, and the calls of `NodeRegistry` that change it. -/
inductive Act (n : Nat) where
  | start (k : Fin n)
  | stop
  | turn (k : Fin n) (env : Env)
  | sensorFrame (frame : LoRaFrame)
  | removeNode (nodeId : UInt32)
  | register (node : LoRaNode)
  | remove (nodeId : UInt32)
  | updateLastSeen (nodeId : UInt32) (now : UInt64)

/-- One step. -/
def Mesh.step (libs : Libs) (s : Mesh n) : Act n → Option (Mesh n)
  | .start k =>
    match s.task k with
    | .ended => some ({ s with active := true }.goto k .check)
    | _ => none
  | .stop => some { s with active := false }
  | .turn k env => s.turn libs k env
  | .sensorFrame _ => some s
  | .removeNode nodeId => some { s with nodes := s.nodes.erase nodeId }
  | .register node => some { s with registry := s.registry.insert node.nodeId node }
  | .remove nodeId => some { s with registry := s.registry.erase nodeId }
  | .updateLastSeen nodeId now =>
    match s.registry.lookup nodeId with
    | some node => some { s with registry := s.registry.insert nodeId { node with lastSeen := now } }
    | none => some s

/-- Behind the first lock. -/
def Pc.holds : Pc → Bool
  | .receive | .insert _ | .lockAgain _ => true
  | _ => false

/-- The task is about to send its join accept. -/
def Pc.sends : Pc → Bool
  | .transmit _ => true
  | _ => false

/-- A task behind the first lock is the one that holds it, and nobody is behind the second. -/
structure Inv (s : Mesh n) : Prop where
  holder : ∀ k, (s.task k).holds = true → s.radio = some k
  silent : ∀ k, (s.task k).sends = false
  accepts : s.accepts = []

theorem Inv.new (n : Nat) : Inv (Mesh.new n) where
  holder _ h := absurd h Bool.false_ne_true
  silent _ := rfl
  accepts := rfl

/-- Everything but the provisioning tasks leaves these three as they are. -/
theorem Inv.congr {s t : Mesh n} (hs : Inv s) (htask : t.task = s.task) (hradio : t.radio = s.radio)
    (haccepts : t.accepts = s.accepts) : Inv t where
  holder k hk := by
    rw [htask] at hk
    rw [hradio]
    exact hs.holder k hk
  silent k := by
    rw [htask]
    exact hs.silent k
  accepts := haccepts.trans hs.accepts

/-- A task goes on, on the same side of the lock. -/
theorem Inv.goto {s : Mesh n} (hs : Inv s) {k : Fin n} {pc : Pc} (hpc : pc.holds = (s.task k).holds)
    (hsilent : pc.sends = false) : Inv (s.goto k pc) where
  holder := Trace.forall_update (P := fun j pc => Pc.holds pc = true → s.radio = some j)
    (fun h => hs.holder k (hpc.symm.trans h)) hs.holder
  silent := Trace.forall_update (P := fun _ pc => Pc.sends pc = false) hsilent hs.silent
  accepts := hs.accepts

/-- The holder gives the lock back. -/
theorem Inv.release {s : Mesh n} (hs : Inv s) {k : Fin n} (hk : (s.task k).holds = true) :
    Inv (s.release k) where
  holder j hj := by
    change (Function.update s.task k .sleep j).holds = true at hj
    rcases eq_or_ne j k with rfl | hne
    · rw [Function.update_self] at hj
      cases hj
    · -- another task behind the lock would hold it, too
      rw [Function.update_of_ne hne] at hj
      exact absurd (Option.some.inj ((hs.holder j hj).symm.trans (hs.holder k hk))) hne
  silent := Trace.forall_update (P := fun _ pc => Pc.sends pc = false) rfl hs.silent
  accepts := hs.accepts

/-- The first lock is had only while nobody holds it, -/
theorem Inv.lock {s t : Mesh n} (hs : Inv s) {k : Fin n} (h : s.lockRadio k .receive = some t) : Inv t := by
  rw [Mesh.lockRadio] at h
  split at h
  · rename_i hfree
    cases h
    have hnobody : ∀ j, (s.task j).holds = true → some k = some j := by
      intro j hj
      rw [hs.holder j hj] at hfree
      cases hfree
    exact {
      holder := Trace.forall_update (P := fun j pc => Pc.holds pc = true → some k = some j)
        (fun _ => rfl) hnobody
      silent := Trace.forall_update (P := fun _ pc => Pc.sends pc = false) rfl hs.silent
      accepts := hs.accepts }
  · cases h

/-- and the second one never. -/
theorem Inv.turn_lockAgain {libs : Libs} {s : Mesh n} (hs : Inv s) {k : Fin n} {entry : LoRaNode}
    (hk : s.task k = .lockAgain entry) (env : Env) : s.turn libs k env = none := by
  have hradio : s.radio = some k := hs.holder k (by rw [hk]; rfl)
  rw [Mesh.turn, hk]
  show s.lockRadio k (.transmit entry) = none
  rw [Mesh.lockRadio, hradio]

theorem Inv.turn {libs : Libs} {s t : Mesh n} (hs : Inv s) {k : Fin n} {env : Env}
    (h : s.turn libs k env = some t) : Inv t := by
  by_cases hagain : ∃ entry, s.task k = .lockAgain entry
  · obtain ⟨entry, hk⟩ := hagain
    rw [hs.turn_lockAgain hk] at h
    cases h
  -- the second lock is never had; a turn from anywhere else stays on its side of the first, or crosses it
  rcases hk : s.task k with _ | _ | _ | _ | entry | entry | entry | _ <;>
    rw [Mesh.turn, hk] at h
  · cases h
  · cases h
    exact hs.goto (by rw [hk]; split <;> rfl) (by split <;> rfl)
  · exact hs.lock h
  · have hholds : (s.task k).holds = true := by rw [hk]; rfl
    simp only at h
    split at h
    · cases h
      exact hs.release hholds
    · split at h
      · cases h
        exact hs.goto (by rw [hholds]; rfl) rfl
      · cases h
        exact hs.release hholds
      · cases h
  · cases h
    have hinsert : Inv { s with nodes := s.nodes.insert entry.nodeId entry } := hs.congr rfl rfl rfl
    exact hinsert.goto (by rw [hk]; rfl) rfl
  · exact absurd ⟨entry, hk⟩ hagain
  · have hsilent := hs.silent k
    rw [hk] at hsilent
    cases hsilent
  · cases h
    exact hs.goto (by rw [hk]; rfl) rfl

/-- **One step sends no join accept.** -/
theorem Inv.step {libs : Libs} {s t : Mesh n} {a : Act n} (h : s.step libs a = some t) (hs : Inv s) :
    Inv t := by
  cases a with
  | start k =>
    rw [Mesh.step] at h
    split at h
    · rename_i hended
      cases h
      have hactive : Inv { s with active := true } := hs.congr rfl rfl rfl
      exact hactive.goto (by rw [hended]; rfl) rfl
    · cases h
  | turn k env => exact hs.turn h
  | updateLastSeen nodeId now =>
    rw [Mesh.step] at h
    split at h <;> cases h
    · exact hs.congr rfl rfl rfl
    · exact hs
  | stop | sensorFrame | removeNode | register | remove =>
    cases h
    exact hs.congr rfl rfl rfl

theorem lockRadio_frame {s t : Mesh n} {j : Fin n} {pc : Pc} (h : s.lockRadio j pc = some t) :
    t.registry = s.registry ∧ ∀ k, k ≠ j → t.task k = s.task k := by
  rw [Mesh.lockRadio] at h
  split at h
  · cases h
    exact ⟨rfl, fun k hne => Function.update_of_ne hne _ _⟩
  · cases h

/-- A turn touches neither the registry of the mesh nor another task. -/
theorem turn_frame {libs : Libs} {s t : Mesh n} {j : Fin n} {env : Env}
    (h : s.turn libs j env = some t) :
    t.registry = s.registry ∧ ∀ k, k ≠ j → t.task k = s.task k := by
  rw [Mesh.turn] at h
  repeat' split at h
  all_goals first
    | exact lockRadio_frame h
    | cases h
      exact ⟨rfl, fun k hne => Function.update_of_ne hne _ _⟩
    | cases h

/-- Every entry of the registry is one that was registered, but for when it was last seen. -/
def Registered (as : List (Act n)) (s : Mesh n) : Prop :=
  ∀ nodeId node, s.registry.lookup nodeId = some node →
    ∃ node', .register node' ∈ as ∧ node'.nodeId = nodeId ∧ node'.sessionKey = node.sessionKey

/-- An entry inserted into the registry, if the new one was registered. -/
theorem Registered.insert {as : List (Act n)} {s t : Mesh n} {nodeId : UInt32} {entry node' : LoRaNode}
    (hs : Registered as s) (ht : t.registry = s.registry.insert nodeId entry)
    (hmem : .register node' ∈ as) (hid : node'.nodeId = nodeId)
    (hkey : node'.sessionKey = entry.sessionKey) : Registered as t := by
  intro id node hlookup
  rw [ht] at hlookup
  rcases eq_or_ne id nodeId with rfl | hne
  · rw [AList.lookup_insert] at hlookup
    obtain rfl := Option.some.inj hlookup
    exact ⟨node', hmem, hid, hkey⟩
  · rw [AList.lookup_insert_ne hne] at hlookup
    exact hs id node hlookup

theorem Registered.mono {as : List (Act n)} {s : Mesh n} (hs : Registered as s) (a : Act n) :
    Registered (as ++ [a]) s := by
  intro nodeId node hlookup
  obtain ⟨node', hmem, hid, hkey⟩ := hs nodeId node hlookup
  exact ⟨node', List.mem_append_left _ hmem, hid, hkey⟩

/-- **One step registers what it says it registers.** -/
theorem Registered.step {libs : Libs} {as : List (Act n)} {s t : Mesh n} {a : Act n}
    (h : s.step libs a = some t) (hs : Registered as s) : Registered (as ++ [a]) t := by
  have hs' := hs.mono a
  cases a with
  | start k =>
    rw [Mesh.step] at h
    split at h
    · cases h
      exact hs'
    · cases h
  | turn k env =>
    intro nodeId node hlookup
    rw [(turn_frame h).1] at hlookup
    exact hs' nodeId node hlookup
  | register node =>
    cases h
    exact hs'.insert rfl (List.mem_append_right _ (List.mem_singleton_self _)) rfl rfl
  | remove nodeId =>
    cases h
    intro id node hlookup
    have hlookup' : (s.registry.erase nodeId).lookup id = some node := hlookup
    rcases eq_or_ne id nodeId with rfl | hne
    · rw [AList.lookup_erase] at hlookup'
      cases hlookup'
    · rw [AList.lookup_erase_ne hne] at hlookup'
      exact hs' id node hlookup'
  | updateLastSeen nodeId now =>
    rw [Mesh.step] at h
    split at h
    · rename_i node hlookup
      cases h
      -- the entry is the old one with a new time
      obtain ⟨node', hmem, hid, hkey⟩ := hs' nodeId node hlookup
      exact hs'.insert rfl hmem hid hkey
    · cases h
      exact hs'
  | stop | sensorFrame | removeNode =>
    cases h
    exact hs'

end LoRa

end FloatProtocols
