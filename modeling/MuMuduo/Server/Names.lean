/-
# The connections by their names

`connections_` of `TcpServer`, with `newConnection` and `removeConnectionInLoop` as
far as they concern it, and `InetAddress::toIpPort`, which goes into every name.
A connection is the number of its creation.

A name is that of the server, the listening address and the decimal
`nextConnId_`.  The suffix is printed into a buffer of `64` characters and needs
at most `33` of them (`length_suffix_lt`), so that names differ as their numbers
do, and the map is exactly the set of the open connections
(`connections_exact`).  All of this ends with the range of `int`.
-/

import Mathlib.Data.List.Nodup
import MuMuduo.Foundation.Registry
import MuMuduo.Foundation.Run
import MuMuduo.Foundation.Text

namespace MuMuduo

open Foundation

/-- `InetAddress`: the four bytes of `sin_addr` and the port in host order. -/
structure InetAddress where
  sin_addr : UInt8 × UInt8 × UInt8 × UInt8
  sin_port : UInt16

namespace InetAddress

/-- `toIp`: what `inet_ntop(AF_INET, ...)` writes. -/
def toIp (a : InetAddress) : List Char :=
  decimal a.sin_addr.1.toNat ++ '.' :: decimal a.sin_addr.2.1.toNat ++
    '.' :: decimal a.sin_addr.2.2.1.toNat ++ '.' :: decimal a.sin_addr.2.2.2.toNat

/-- `toIpPort`. -/
def toIpPort (a : InetAddress) : List Char := a.toIp ++ ':' :: decimal a.sin_port.toNat

/-- A byte is written in at most three digits. -/
theorem length_byte_le (b : UInt8) : (decimal b.toNat).length ≤ 3 :=
  length_decimal_le (by decide) (Nat.lt_trans b.toNat_lt (by decide))

/-- The text and its terminating zero fit into the `64` characters of `buff`. -/
theorem length_toIpPort_le (a : InetAddress) : a.toIpPort.length ≤ 21 := by
  have h₀ := length_byte_le a.sin_addr.1
  have h₁ := length_byte_le a.sin_addr.2.1
  have h₂ := length_byte_le a.sin_addr.2.2.1
  have h₃ := length_byte_le a.sin_addr.2.2.2
  have hp : (decimal a.sin_port.toNat).length ≤ 5 :=
    length_decimal_le (by decide) (Nat.lt_trans a.sin_port.toNat_lt (by decide))
  simp only [toIpPort, toIp, List.length_append, List.length_cons]
  omega

end InetAddress

/-- The members of `TcpServer` that name and hold the connections, the names of
the connections created so far, and the connections removed. -/
structure ConnectionMap where
  name_ : List Char
  ipPort_ : List Char
  nextConnId_ : BitVec 32
  connections_ : List Char → Option ℕ
  created : List (List Char)
  removed : List ℕ

namespace ConnectionMap

/-- The calls that work on `connections_`. -/
inductive Call
  | newConnection
  | removeConnectionInLoop (conn : ℕ)

/-- `TcpServer(loop, listenAddr, nameArg, option)`. -/
def ofServer (nameArg : List Char) (listenAddr : InetAddress) : ConnectionMap where
  name_ := nameArg
  ipPort_ := listenAddr.toIpPort
  nextConnId_ := 1
  connections_ := fun _ => none
  created := []
  removed := []

/-- `"-%s#%d"`. -/
def suffix (ipPort : List Char) (connId : ℤ) : List Char :=
  '-' :: ipPort ++ '#' :: decimalInt connId

/-- `name_ + buf`. -/
def connName (s : ConnectionMap) : List Char :=
  s.name_ ++ snprintf 64 (suffix s.ipPort_ s.nextConnId_.toInt)

/-- `newConnection`, up to the callbacks of the connection. -/
def newConnection (s : ConnectionMap) : ConnectionMap :=
  { s with
    nextConnId_ := s.nextConnId_ + 1
    connections_ := Function.update s.connections_ s.connName (some s.created.length)
    created := s.created ++ [s.connName] }

/-- `connections_.erase(conn->name())`. -/
def removeConnectionInLoop (s : ConnectionMap) (conn : ℕ) (name : List Char) : ConnectionMap :=
  { s with
    connections_ := Function.update s.connections_ name none
    removed := conn :: s.removed }

/-- One call; `removeConnectionInLoop` is called with a connection. -/
def step (s : ConnectionMap) : Call → Option ConnectionMap
  | .newConnection => some s.newConnection
  | .removeConnectionInLoop conn => s.created[conn]?.map (s.removeConnectionInLoop conn)

/-- The name of connection `i`, nothing cut off. -/
def fullName (nameArg ipPort : List Char) (i : ℕ) : List Char :=
  nameArg ++ suffix ipPort ((i + 1 : ℕ) : ℤ)

/-- Different numbers make different names. -/
theorem fullName_injective (nameArg ipPort : List Char) :
    Function.Injective (fullName nameArg ipPort) := by
  intro i j h
  simp only [fullName, suffix, decimalInt_natCast, List.append_cancel_left_eq, List.cons_append,
    List.cons.injEq, true_and] at h
  have := decimal_injective h
  omega

/-- **The suffix fits into the buffer**, for every address and every positive
`int`. -/
theorem length_suffix_lt (a : InetAddress) {i : ℕ} (hi : i < 2 ^ 31) :
    (suffix a.toIpPort (i : ℤ)).length < 64 := by
  have ha := a.length_toIpPort_le
  have hd : (decimal i).length ≤ 10 := length_decimal_le (by decide) (by omega)
  simp only [suffix, decimalInt_natCast, List.cons_append, List.length_cons, List.length_append]
  omega

/-- What holds of the map while `nextConnId_` is in the range of `int`. -/
structure Kept (nameArg ipPort : List Char) (s : ConnectionMap) : Prop where
  name_eq : s.name_ = nameArg
  ipPort_eq : s.ipPort_ = ipPort
  next_eq : s.nextConnId_ = BitVec.ofNat 32 (s.created.length + 1)
  created_eq : s.created = (List.range s.created.length).map (fullName nameArg ipPort)
  removed_lt : ∀ i ∈ s.removed, i < s.created.length
  registry : Registry (fullName nameArg ipPort) s.created.length {i | i ∈ s.removed} s.connections_

variable {nameArg : List Char} {listenAddr : InetAddress} {s s' : ConnectionMap}

/-- A server without connections. -/
theorem Kept.ofServer (nameArg : List Char) (listenAddr : InetAddress) :
    Kept nameArg listenAddr.toIpPort (ofServer nameArg listenAddr) where
  name_eq := rfl
  ipPort_eq := rfl
  next_eq := rfl
  created_eq := rfl
  removed_lt := by simp [ConnectionMap.ofServer]
  registry := by
    simpa [ConnectionMap.ofServer] using Registry.empty (fullName nameArg listenAddr.toIpPort)

/-- The next name is not cut off. -/
theorem Kept.connName_eq (h : Kept nameArg listenAddr.toIpPort s)
    (hlt : s.created.length < 2 ^ 31 - 1) :
    s.connName = fullName nameArg listenAddr.toIpPort s.created.length := by
  have hid : s.nextConnId_.toInt = ((s.created.length + 1 : ℕ) : ℤ) := by
    have hn : (BitVec.ofNat 32 (s.created.length + 1)).toNat = s.created.length + 1 := by
      rw [BitVec.toNat_ofNat, Nat.mod_eq_of_lt (by omega)]
    rw [h.next_eq, BitVec.toInt_eq_toNat_of_lt (by omega), hn]
  rw [connName, hid, h.name_eq, h.ipPort_eq,
    snprintf_eq (length_suffix_lt listenAddr (by omega))]
  rfl

/-- The names given out, by their numbers. -/
theorem Kept.getElem?_created {ipPort : List Char} (h : Kept nameArg ipPort s) (i : ℕ) :
    s.created[i]? = if i < s.created.length then some (fullName nameArg ipPort i) else none := by
  rw [h.created_eq]
  split_ifs with hi <;> simp_all

/-- **One call.**  A creation enters the connection under a free name, a removal
takes out the connection it is called with, if it is there. -/
theorem Kept.step (h : Kept nameArg listenAddr.toIpPort s) {a : Call}
    (hlt : s.created.length < 2 ^ 31 - 1) (hs : s.step a = some s') :
    Kept nameArg listenAddr.toIpPort s' := by
  have hinj := fullName_injective nameArg listenAddr.toIpPort
  cases a with
  | newConnection =>
      obtain rfl := Option.some.inj hs
      have hname := h.connName_eq hlt
      have hlen : s.newConnection.created.length = s.created.length + 1 := List.length_append
      refine ⟨h.name_eq, h.ipPort_eq, ?_, ?_, fun i hi => ?_, ?_⟩
      · rw [hlen]
        show s.nextConnId_ + 1 = _
        rw [h.next_eq, show (1 : BitVec 32) = BitVec.ofNat 32 1 from rfl, ← BitVec.ofNat_add]
      · rw [hlen, List.range_succ, List.map_append, ← h.created_eq, List.map_singleton, ← hname]
        rfl
      · rw [hlen]
        exact Nat.lt_succ_of_lt (h.removed_lt i hi)
      · rw [hlen]
        show Registry _ _ _ (Function.update s.connections_ s.connName (some s.created.length))
        rw [hname]
        exact h.registry.insert hinj h.removed_lt
  | removeConnectionInLoop conn =>
      obtain ⟨name, hn, rfl⟩ := Option.map_eq_some_iff.1 hs
      rw [h.getElem?_created] at hn
      split_ifs at hn with hlt
      obtain rfl := Option.some.inj hn
      refine ⟨h.name_eq, h.ipPort_eq, h.next_eq, h.created_eq, fun i hi => ?_, ?_⟩
      · rcases List.mem_cons.1 hi with rfl | hi
        · exact hlt
        · exact h.removed_lt i hi
      · have hset : {i | i ∈ (s.removeConnectionInLoop conn
            (fullName nameArg listenAddr.toIpPort conn)).removed} =
            insert conn {i | i ∈ s.removed} := by
          ext i
          exact List.mem_cons
        rw [hset]
        exact h.registry.erase hinj conn

/-- No name is taken back. -/
theorem length_created_le {a : Call} (hs : s.step a = some s') :
    s.created.length ≤ s'.created.length := by
  cases a with
  | newConnection =>
      obtain rfl := Option.some.inj hs
      exact Nat.le_of_lt (by simp [newConnection])
  | removeConnectionInLoop conn =>
      obtain ⟨name, -, rfl⟩ := Option.map_eq_some_iff.1 hs
      exact Nat.le_refl _

/-- What holds of the map holds along every run in the range of `int`. -/
theorem Kept.of_exec {calls : List Call}
    (hs : exec ConnectionMap.step (ConnectionMap.ofServer nameArg listenAddr) calls = some s)
    (hlt : s.created.length < 2 ^ 31 - 1) : Kept nameArg listenAddr.toIpPort s := by
  refine exec_invariant' (I := fun s => s.created.length < 2 ^ 31 - 1 →
    Kept nameArg listenAddr.toIpPort s) (fun u a u' hu hstep hlt' => ?_)
    (fun _ => Kept.ofServer nameArg listenAddr) hs hlt
  have hlt := Nat.lt_of_le_of_lt (length_created_le hstep) hlt'
  exact (hu hlt).step hlt hstep

/-- The next name is not in the map, up to the range of `int`. -/
theorem Kept.fresh (h : Kept nameArg listenAddr.toIpPort s)
    (hlt : s.created.length < 2 ^ 31 - 1) : s.connections_ s.connName = none := by
  rw [h.connName_eq hlt]
  exact h.registry.fresh (fullName_injective nameArg listenAddr.toIpPort)

/-- **The map is exactly the set of the open connections.**  For every server
name, every listening address and every sequence of creations and removals, as
long as fewer than `2 ^ 31 - 1` connections have been accepted: every name is the
whole of its three parts, no two names are the same, a key of the map is the name
of the connection under it, and the map holds the connections created and not
removed.  The next name is free, and an erase finds the connection it is called
with or nothing. -/
theorem connections_exact {calls : List Call}
    (hs : exec step (ofServer nameArg listenAddr) calls = some s)
    (hlt : s.created.length < 2 ^ 31 - 1) :
    (∀ i, i < s.created.length →
      s.created[i]? = some (nameArg ++ suffix listenAddr.toIpPort ((i + 1 : ℕ) : ℤ)) ∧
        (suffix listenAddr.toIpPort ((i + 1 : ℕ) : ℤ)).length < 64) ∧
      s.created.Nodup ∧
      (∀ key i, s.connections_ key = some i → s.created[i]? = some key) ∧
      (∀ i, (∃ key, s.connections_ key = some i) ↔ i < s.created.length ∧ i ∉ s.removed) ∧
      s.connections_ s.connName = none ∧
      ∀ i j name, s.created[i]? = some name → s.connections_ name = some j → j = i := by
  have h := Kept.of_exec hs hlt
  have hinj := fullName_injective nameArg listenAddr.toIpPort
  refine ⟨fun i hi => ⟨?_, length_suffix_lt listenAddr (by omega)⟩, ?_, fun key i hk => ?_,
    h.registry.exists_iff, h.fresh hlt, fun i j name hi hj => ?_⟩
  · rw [h.getElem?_created, if_pos hi]
    rfl
  · rw [h.created_eq]
    exact List.Nodup.map hinj List.nodup_range
  · obtain ⟨rfl, hi, -⟩ := h.registry.of_mem hk
    rw [h.getElem?_created, if_pos hi]
  · rw [h.getElem?_created] at hi
    split_ifs at hi
    obtain rfl := Option.some.inj hi
    exact h.registry.own hinj hj

/-- The hypotheses are satisfiable: three connections are accepted, and the first of
them is removed twice. -/
theorem connections_exact_three :
    ∃ s, exec step (ofServer ['s'] ⟨(127, 0, 0, 1), 8000⟩)
        [.newConnection, .newConnection, .removeConnectionInLoop 0, .newConnection,
          .removeConnectionInLoop 0] = some s ∧
      s.created.length = 3 ∧ (∃ key, s.connections_ key = some 1) ∧
      ¬∃ key, s.connections_ key = some 0 := by
  have hs : exec step (ofServer ['s'] ⟨(127, 0, 0, 1), 8000⟩)
      [.newConnection, .newConnection, .removeConnectionInLoop 0, .newConnection,
        .removeConnectionInLoop 0] = some _ := rfl
  obtain ⟨-, -, -, h, -⟩ := connections_exact hs (by decide)
  exact ⟨_, hs, rfl, (h 1).2 (by decide), fun h₀ => ((h 0).1 h₀).2 (by decide)⟩

end ConnectionMap

end MuMuduo
