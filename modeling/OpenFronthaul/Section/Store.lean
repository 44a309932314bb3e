import OpenFronthaul.Section.Tagging

/-!
# The section store

Every section that is sent or received is recorded, so that the handling of user data can look up
what it does not carry itself.  There is one bucket for each rotation context, direction, component
carrier and antenna; the rotation context of a slot is its number modulo four, which keeps a slot
apart from those still in flight.  All buckets lie in one table (`bucketIndex`), and each holds a
limited number of sections in the order in which they were recorded.

A change of the store is a `Step`, whose effect stays also where it fails; `Step.after` is the store
that a step leaves behind when it succeeds.
-/

namespace OpenFronthaul

/-- The number of rotation contexts. -/
def rotationContexts : Nat := 4

/-- The rotation context of a slot. -/
def rotationContext (slot : Nat) : UInt8 :=
  UInt8.ofNat (slot % rotationContexts)

/-- Sections in a bucket unless another limit is asked for. -/
def defaultBucketCapacity : Nat := 66

/-! ## Buckets -/

/-- A bucket with a fixed number of places, filled from the first on.  Emptying it only forgets how
many places are in use: the places keep what was written to them until they are claimed again. -/
structure Bucket (capacity : Nat) where
  /-- All places, those in use first. -/
  places : Vector Section capacity
  /-- The number of places in use. -/
  used : Nat
  used_le : used ≤ capacity

namespace Bucket

variable {capacity : Nat}

/-- A bucket that was never used. -/
def blank (capacity : Nat) : Bucket capacity :=
  ⟨Vector.replicate capacity default, 0, Nat.zero_le _⟩

/-- The sections in use, in the order in which they were recorded. -/
def live (bucket : Bucket capacity) : List Section :=
  bucket.places.toList.take bucket.used

/-- The bucket with its next free place claimed and cleared, if there is one. -/
def claim? (bucket : Bucket capacity) : Option (Bucket capacity) :=
  if h : bucket.used < capacity then
    some ⟨bucket.places.set bucket.used default, bucket.used + 1, h⟩
  else none

/-- The bucket with a change to the place that was claimed last. -/
def amend (bucket : Bucket capacity) (edit : Section → Section) : Bucket capacity :=
  if h : bucket.used - 1 < capacity then
    { bucket with places := bucket.places.set (bucket.used - 1) (edit bucket.places[bucket.used - 1]) }
  else bucket

/-- The bucket with no place in use. -/
def rewind (bucket : Bucket capacity) : Bucket capacity :=
  { bucket with used := 0, used_le := Nat.zero_le _ }

end Bucket

/-! ## The table of buckets -/

/-- The number of buckets of a store. -/
def bucketCount (carriers antennas : Nat) : Nat :=
  rotationContexts * Direction.all.length * carriers * antennas

/-- Recorded sections by bucket. -/
structure SectionStore where
  /-- Component carriers. -/
  carriers : Nat
  /-- Antennas of each carrier. -/
  antennas : Nat
  /-- Sections that a bucket can hold. -/
  capacity : Nat
  /-- The buckets, one after another. -/
  buckets : Vector (Bucket capacity) (bucketCount carriers antennas)

namespace SectionStore

/-- An empty store. -/
def create (carriers antennas capacity : Nat) : Except Error SectionStore :=
  if carriers = 0 ∨ antennas = 0 ∨ 255 < carriers ∨ 255 < antennas then
    throw (.storeShape carriers antennas)
  else
    pure ⟨carriers, antennas, capacity, Vector.replicate _ (.blank capacity)⟩

/-- Whether a key is one of a bucket. -/
def hasKey (store : SectionStore) (key : SectionKey) : Bool :=
  key.context.toNat < rotationContexts && key.carrier.toNat < store.carriers
    && key.antenna.toNat < store.antennas

/-- The place of a bucket: contexts are split by direction, directions by carrier, carriers by
antenna. -/
def bucketIndex (store : SectionStore) (key : SectionKey) : Nat :=
  ((key.context.toNat * Direction.all.length + key.direction.bit) * store.carriers
    + key.carrier.toNat) * store.antennas + key.antenna.toNat

/-- A number below `high * base` from its digit and the rest. -/
private theorem digit_lt {high base rest digit : Nat} (hrest : rest < high) (hdigit : digit < base) :
    rest * base + digit < high * base :=
  calc
    rest * base + digit < rest * base + base := Nat.add_lt_add_left hdigit _
    _ = (rest + 1) * base := (Nat.succ_mul rest base).symm
    _ ≤ high * base := Nat.mul_le_mul_right base hrest

theorem bucketIndex_lt {store : SectionStore} {key : SectionKey} (h : store.hasKey key = true) :
    store.bucketIndex key < bucketCount store.carriers store.antennas := by
  simp only [hasKey, Bool.and_eq_true, decide_eq_true_eq] at h
  exact digit_lt (digit_lt (digit_lt h.1.1 key.direction.bit_lt) h.1.2) h.2

/-- The bucket of a key, if the key is in range. -/
def bucket? (store : SectionStore) (key : SectionKey) : Option (Bucket store.capacity) :=
  if h : store.hasKey key then
    have := bucketIndex_lt h
    some store.buckets[store.bucketIndex key]
  else none

/-- The store with another bucket for a key; a key out of range changes nothing. -/
def setBucket (store : SectionStore) (key : SectionKey) (bucket : Bucket store.capacity) :
    SectionStore :=
  { store with
    buckets :=
      if h : store.hasKey key then
        store.buckets.set (store.bucketIndex key) bucket (bucketIndex_lt h)
      else store.buckets }

/-- The keys of all buckets of a rotation context. -/
def keysOf (store : SectionStore) (context : UInt8) : List SectionKey :=
  Direction.all.flatMap fun direction =>
    (List.range store.carriers).flatMap fun carrier =>
      (List.range store.antennas).map fun antenna =>
        ⟨direction, UInt8.ofNat carrier, UInt8.ofNat antenna, context⟩

/-! ## Changes -/

/-- A change of a store; its effect stays when it fails. -/
abbrev Step (α : Type) := ExceptT Error (StateM SectionStore) α

namespace Step

/-- Replace the bucket of a key by what the bucket makes of itself. -/
def change (key : SectionKey)
    (f : {capacity : Nat} → Bucket capacity → Except Error (Bucket capacity)) : Step Unit := do
  let store ← get
  match store.bucket? key with
  | none => throw (.keyOutOfRange key)
  | some bucket => set (store.setBucket key (← f bucket))

/-- Claim the next free place of a bucket for a blank section. -/
def reserve (key : SectionKey) : Step Unit :=
  change key fun {capacity} bucket =>
    match bucket.claim? with
    | some bucket => pure bucket
    | none => throw (.bucketFull key capacity)

/-- Change the section at the place of a bucket that was claimed last. -/
def amend (key : SectionKey) (edit : Section → Section) : Step Unit :=
  change key fun bucket => pure (bucket.amend edit)

/-- Record a section; a full bucket stays as it is. -/
def add (key : SectionKey) (info : Section) : Step Unit := do
  reserve key
  amend key fun _ => info

/-- Empty a bucket. -/
def reset (key : SectionKey) : Step Unit :=
  change key fun bucket => pure bucket.rewind

/-- Empty every bucket of a rotation context. -/
def resetContext (context : UInt8) : Step Unit := do
  ((← get).keysOf context).forM reset

/-- The store after a change that succeeds. -/
def after (step : Step Unit) (store : SectionStore) : Except Error SectionStore :=
  match step.run store with
  | (.ok _, store) => pure store
  | (.error e, _) => throw e

end Step

/-- The store with the next free place of a bucket claimed for a blank section. -/
def reserve (store : SectionStore) (key : SectionKey) : Except Error SectionStore :=
  (Step.reserve key).after store

/-- The store with a section written to the place of a bucket that was claimed last. -/
def fill (store : SectionStore) (key : SectionKey) (info : Section) : Except Error SectionStore :=
  (Step.amend key fun _ => info).after store

/-- The store with one more section recorded. -/
def add (store : SectionStore) (key : SectionKey) (info : Section) : Except Error SectionStore :=
  (Step.add key info).after store

/-- The store with an empty bucket. -/
def reset (store : SectionStore) (key : SectionKey) : Except Error SectionStore :=
  (Step.reset key).after store

/-- The store with every bucket of a rotation context empty. -/
def resetContext (store : SectionStore) (context : UInt8) : Except Error SectionStore :=
  (Step.resetContext context).after store

/-! ## Questions -/

/-- The sections of a bucket in the order in which they were recorded; none for a key out of
range. -/
def entries (store : SectionStore) (key : SectionKey) : List Section :=
  match store.bucket? key with
  | some bucket => bucket.live
  | none => []

/-- The number of sections in a bucket. -/
def size (store : SectionStore) (key : SectionKey) : Nat :=
  match store.bucket? key with
  | some bucket => bucket.used
  | none => 0

/-- The section at a place of a bucket. -/
def get? (store : SectionStore) (key : SectionKey) (index : Nat) : Option Section :=
  (store.entries key)[index]?

/-- The first section of a bucket with an id. -/
def findById? (store : SectionStore) (key : SectionKey) (id : UInt16) : Option Section :=
  (store.entries key).find? (·.id = id)

/-- The section at a cursor, with the cursor behind it. -/
def iterate (store : SectionStore) (key : SectionKey) (cursor : Nat) : Option Section × Nat :=
  match store.get? key cursor with
  | some info => (some info, cursor + 1)
  | none => (none, cursor)

/-- The first section of a bucket that covers a resource block on a symbol. -/
def lookup? (store : SectionStore) (key : SectionKey) (symbol prb : Nat) : Option Section :=
  if symbol < symbolsPerSlot then (store.entries key).find? (·.covers symbol prb) else none

end SectionStore

end OpenFronthaul
