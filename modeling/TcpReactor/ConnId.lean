namespace TcpReactor

/-! # Identities of connections

The identity of a connection is the slot in which it is kept and a version, which changes each time
a connection comes in. An event for a connection that is gone is thereby told apart from one for the
connection that has its slot now. Both numbers have 32 bits, so that they fit in the 64-bit key
under which a poller reports events.
-/

structure ConnId where
  slot : UInt32
  version : UInt32
  deriving DecidableEq, Repr

namespace ConnId

/-- The key of the listening socket. -/
def listenerKey : Nat := UInt64.size - 2

/-- The key under which the poller knows the connection. -/
def toKey (id : ConnId) : Nat := id.version.toNat * UInt32.size + id.slot.toNat

/-- The identity in the low 64 bits of a key. -/
def ofKey (key : Nat) : ConnId := ⟨.ofNat key, .ofNat (key / UInt32.size)⟩

/-- The identity for a slot, if its number has at most 32 bits. -/
def of? (slot : Nat) (version : UInt32) : Option ConnId :=
  if slot < UInt32.size then some ⟨.ofNat slot, version⟩ else none

def toString (id : ConnId) : String := s!"{id.slot}:{id.version}"

/-- The identity that a text spells. -/
def ofString? (text : String) : Option ConnId :=
  match text.splitOn ":" with
  | [slot, version] => do return ⟨.ofNat (← slot.toNat?), .ofNat (← version.toNat?)⟩
  | _ => none

/-- A key leads back to its identity. -/
theorem ofKey_toKey (id : ConnId) : ofKey id.toKey = id := by
  rcases id with ⟨slot, version⟩
  have hslot := slot.toNat_lt
  have hversion := version.toNat_lt
  simp only [ofKey, toKey, UInt32.size, mk.injEq]
  refine ⟨UInt32.toNat.inj ?_, UInt32.toNat.inj ?_⟩
  · rw [UInt32.toNat_ofNat']
    omega
  · rw [UInt32.toNat_ofNat']
    omega

end ConnId
end TcpReactor
