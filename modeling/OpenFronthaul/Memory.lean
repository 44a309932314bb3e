import OpenFronthaul.Bytes
import OpenFronthaul.Error
import Std.Data.HashMap

/-!
# Shared memory

Large payloads are not copied into packets: a packet holds a reference to a buffer that belongs to
the application, and the application learns through a callback when the last holder has let go.
Packets themselves are counted against a pool of limited size.  `Memory` keeps both accounts.  The
callback of a buffer runs when its count of holders falls from one to zero, and at most once.
-/

namespace OpenFronthaul

/-- A buffer that packets can refer to without copying it.

The number names the account of its holders.  Account zero is that of the bytes of received packets,
which no application owns. -/
structure SharedBuffer where
  /-- The account of the buffer. -/
  account : Nat
  /-- The contents, which never change. -/
  bytes : Bytes
deriving DecidableEq

/-! ## The packet pool -/

/-- A pool that admits a limited number of packets at once. -/
structure Pool where
  /-- Slots of the pool. -/
  capacity : Nat
  /-- Slots taken at present. -/
  inUse : Nat := 0
  /-- Slots taken so far. -/
  allocs : Nat := 0
  /-- Slots given back so far. -/
  frees : Nat := 0
deriving DecidableEq

namespace Pool

/-- Take a slot. -/
def alloc (pool : Pool) : Except LinkError Pool :=
  if pool.inUse < pool.capacity then
    pure { pool with inUse := pool.inUse + 1, allocs := pool.allocs + 1 }
  else throw (.poolExhausted pool.inUse)

/-- Give a slot back. -/
def free (pool : Pool) : Pool :=
  { pool with inUse := pool.inUse - 1, frees := pool.frees + 1 }

end Pool

/-! ## Accounts of shared buffers -/

/-- What is known of the holders of one shared buffer. -/
structure Account where
  /-- Live references to the buffer. -/
  holders : Nat := 0
  /-- A callback waits for the last holder to let go. -/
  armed : Bool := false
  /-- How often the callback has run. -/
  released : Nat := 0
deriving DecidableEq

namespace Account

/-- One more reference. -/
def attach (account : Account) : Account :=
  { account with holders := account.holders + 1 }

/-- One reference less; with the last one a waiting callback runs. -/
def release (account : Account) : Account :=
  if account.holders = 1 ∧ account.armed then
    { holders := 0, armed := false, released := account.released + 1 }
  else { account with holders := account.holders - 1 }

end Account

/-- The accounts of shared buffers and of the packet pool, if packets are counted at all. -/
structure Memory where
  /-- The pool that packets are counted against. -/
  pool : Option Pool := none
  /-- The accounts that differ from a fresh one. -/
  accounts : Std.HashMap Nat Account := {}
  /-- The next account to be opened. -/
  next : Nat := 1

namespace Memory

/-- The account of the given number. -/
def account (memory : Memory) (number : Nat) : Account :=
  memory.accounts.getD number {}

/-- Live references to a buffer. -/
def holders (memory : Memory) (buffer : SharedBuffer) : Nat :=
  (memory.account buffer.account).holders

/-- Change one account. -/
def update (memory : Memory) (number : Nat) (change : Account → Account) : Memory :=
  { memory with accounts := memory.accounts.insert number (change (memory.account number)) }

/-- Share bytes under an account of their own, with or without a callback. -/
def share (memory : Memory) (bytes : Bytes) (callback : Bool) : SharedBuffer × Memory :=
  (⟨memory.next, bytes⟩,
    { memory with
      accounts := memory.accounts.insert memory.next { armed := callback }
      next := memory.next + 1 })

/-- Book one more reference to a buffer. -/
def attach (memory : Memory) (buffer : SharedBuffer) : Memory :=
  memory.update buffer.account .attach

/-- Book that a reference to a buffer is gone. -/
def release (memory : Memory) (buffer : SharedBuffer) : Memory :=
  memory.update buffer.account .release

/-- Take a slot of the pool; without a pool nothing is counted. -/
def takeSlot (memory : Memory) : Except LinkError Memory :=
  match memory.pool with
  | none => pure memory
  | some pool => return { memory with pool := some (← pool.alloc) }

/-- Give a slot back to the pool. -/
def freeSlot (memory : Memory) : Memory :=
  { memory with pool := memory.pool.map Pool.free }

end Memory

end OpenFronthaul
