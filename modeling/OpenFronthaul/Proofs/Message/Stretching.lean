import OpenFronthaul.Proofs.Extension.Stretching
import OpenFronthaul.Proofs.Message.Exactness
import OpenFronthaul.Proofs.Receiver.Recording

/-!
# Packets with longer extensions

A reader goes from one extension to the next by the announced lengths, so a packet in which some
extensions were given more bytes at their ends (`Message.Stretched`) is read as the same message
when the contents of these extensions say themselves where they end.  Each of the longer extensions
is counted as one whose length differs from that of its contents, and nothing else changes
(`Receiver.parse_stretched`).  The two packets are read side by side, with the rest of the data at
other places but the same steps (`Receiver.Follows`).
-/

namespace OpenFronthaul

open Extension

/-! ## Stretching a packet -/

namespace Message

/-- The blocks of a chain, and the same blocks where some got more words at their ends: those of
extensions whose end a receiver finds without their lengths. -/
inductive StretchedChain (weights : Option UInt16) : List Extension → Bytes → Bytes → ℕ → Prop
  | nil : StretchedChain weights [] [] [] 0
  | keep {e : Extension} {exts : List Extension} {encoded : Encoded} {wire wire' : Bytes} {n : ℕ} :
    e.encode (!exts.isEmpty) = .ok encoded → StretchedChain weights exts wire wire' n →
      StretchedChain weights (e :: exts) (encoded.wire ++ wire) (encoded.wire ++ wire') n
  | stretch {e : Extension} {exts : List Extension} {encoded : Encoded} {wire wire' : Bytes} {n : ℕ}
    {filler : Bytes} :
    e.encode (!exts.isEmpty) = .ok encoded → e.Closed weights → filler ≠ [] → 4 ∣ filler.length →
      (encoded.wire.length + filler.length) / 4 < 256 ^ e.kind.lengthFieldSize →
      StretchedChain weights exts wire wire' n →
      StretchedChain weights (e :: exts) (encoded.wire ++ wire)
        (Extension.stretch e.kind encoded.wire filler ++ wire') (n + 1)

/-- The sections of a message with their extensions, and the same with `n` longer extensions. -/
inductive StretchedSections (mu : Numerology) (tagging : IdTagging) (type : SectionType)
    (weights : Option UInt16) : List ExtendedSection → Bytes → Bytes → ℕ → Prop
  | nil : StretchedSections mu tagging type weights [] [] [] 0
  | cons {s : ExtendedSection} {sections : List ExtendedSection} {wireId : ℕ}
    {body chain chain' wire wire' : Bytes} {n k : ℕ} :
    tagging.tag s.info.id mu = .ok wireId →
      s.info.encode type wireId (!s.extensions.isEmpty) = .ok body →
      StretchedChain weights s.extensions chain chain' n →
      StretchedSections mu tagging type weights sections wire wire' k →
      StretchedSections mu tagging type weights (s :: sections) (body ++ (chain ++ wire))
        (body ++ (chain' ++ wire')) (n + k)

/-- The packet of a message, and the same packet with `n` longer extensions. -/
inductive Stretched (m : Message) (mu : Numerology) (tagging : IdTagging)
    (weights : Option UInt16) : Bytes → Bytes → ℕ → Prop
  | mk {header wire wire' : Bytes} {n : ℕ} :
    m.header.encode m.direction m.type m.sections.length = .ok header →
      StretchedSections mu tagging m.type weights m.sections wire wire' n →
      Stretched m mu tagging weights (header ++ wire) (header ++ wire') n

end Message

/-! ## Two readers side by side -/

/-- Counts with some mismatches more. -/
def ReceiveCounts.addMismatches (counts : ReceiveCounts) (n : ℕ) : ReceiveCounts :=
  { counts with lengthMismatches := counts.lengthMismatches + n }

lemma ReceiveCounts.addMismatches_addMismatches (counts : ReceiveCounts) (n k : ℕ) :
    (counts.addMismatches n).addMismatches k = counts.addMismatches (n + k) :=
  congrArg (fun total => { counts with lengthMismatches := total }) (Nat.add_assoc _ n k)

namespace Receiver

variable {α β γ δ : Type} {c : FlowContext} {n k : ℕ}

/-- A receiver that has counted some mismatches more. -/
def addMismatches (r : Receiver) (n : ℕ) : Receiver :=
  { r with counts := r.counts.addMismatches n }

/-- Where the first step succeeds the second one does as well, from a state with any mismatches
more: the results go together, and the second step counts `n` mismatches more than the first. -/
def Follows (n : ℕ) (P : α → β → Prop) (x : Step α) (y : Step β) : Prop :=
  ∀ ⦃r a after⦄, x.run r = (.ok a, after) → ∃ b, P a b ∧
    ∀ extra, y.run (r.addMismatches extra) = (.ok b, after.addMismatches (extra + n))

section Follows

variable {P : α → β → Prop} {Q : γ → δ → Prop}

lemma follows_throw (e : Error) (y : Step β) : Follows n P (throw e) y := by
  rintro r a after ⟨⟩

lemma follows_lift {x : Except Error α} {y : Except Error β}
    (h : ∀ a, x = .ok a → ∃ b, y = .ok b ∧ P a b) : Follows 0 P (liftM x) (liftM y) := by
  intro r a after hrun
  rw [run_lift] at hrun
  obtain ⟨hx, rfl⟩ := Prod.mk.inj hrun
  obtain ⟨b, rfl, hP⟩ := h a hx
  exact ⟨b, hP, fun extra => run_lift _ _⟩

lemma follows_same (x : Except Error α) : Follows 0 (· = ·) (liftM x) (liftM x) :=
  follows_lift fun a hx => ⟨a, hx, rfl⟩

lemma follows_pure {a : α} {b : β} (h : P a b) : Follows 0 P (pure a) (pure b) :=
  follows_lift (x := .ok a) (y := .ok b) fun _ hx => ⟨b, rfl, Except.ok.inj hx ▸ h⟩

lemma follows_count {change change' : ReceiveCounts → ReceiveCounts}
    (h : ∀ counts extra, change' (counts.addMismatches extra) =
      (change counts).addMismatches (extra + n)) :
    Follows n (fun _ _ => True) (count change) (count change') := by
  intro r a after hrun
  obtain ⟨-, rfl⟩ := Prod.mk.inj ((run_count change r).symm.trans hrun)
  refine ⟨(), trivial, fun extra => ?_⟩
  rw [run_count]
  exact congrArg (fun counts => (_, { r with counts })) (h r.counts extra)

lemma Follows.bind {x : Step α} {y : Step β} {f : α → Step γ} {g : β → Step δ}
    (hx : Follows n P x y) (hf : ∀ a b, P a b → Follows k Q (f a) (g b)) :
    Follows (n + k) Q (x >>= f) (y >>= g) := by
  intro r result after hrun
  obtain ⟨a, middle, hfirst, hnext⟩ := run_bind_eq_ok.mp hrun
  obtain ⟨b, hP, hy⟩ := hx hfirst
  obtain ⟨result', hQ, hg⟩ := hf a b hP hnext
  refine ⟨result', hQ, fun extra => ?_⟩
  rw [run_bind, hy, ← Nat.add_assoc]
  exact hg (extra + n)

end Follows

/-- Recording a section does not look at the counts. -/
lemma follows_record (key : SectionKey) (index : ℕ) (info : Section) :
    Follows 0 (fun _ _ => True) (record c key index info) (record c key index info) := by
  intro r a after hrun
  refine ⟨a, trivial, fun extra => ?_⟩
  rcases hstore : r.store with _ | store
  · have hstore' : (r.addMismatches extra).store = none := hstore
    rw [run_record_none hstore] at hrun
    rw [run_record_none hstore']
    cases hrun
    rfl
  · have hstore' : (r.addMismatches extra).store = some store := hstore
    rw [run_record_some hstore] at hrun
    rw [run_record_some hstore']
    generalize (if index = 0 then resetStale c key store else pure store : Except Error _) = before
      at hrun ⊢
    rcases before with e | before
    · cases hrun
    · dsimp only at hrun ⊢
      rcases hadd : before.add key info with e | added
      · rw [hadd] at hrun
        cases hrun
      · rw [hadd] at hrun
        cases hrun
        rfl

/-! ## Reading a stretched packet -/

/-- Results that only differ in what is left of the data. -/
def Leaves (rest rest' : Bytes) (a b : α × Bytes) : Prop :=
  a.2 = rest ∧ b = (a.1, rest')

/-- Two blocks that are read alike are counted alike, but for the mismatches. -/
lemma inspect_alike {slot : ℕ} {d d' : Decoded} (h : d.Alike d' n) (counts : ReceiveCounts)
    (extra : ℕ) : inspect c slot d' (counts.addMismatches extra) =
      (inspect c slot d counts).addMismatches (extra + n) := by
  obtain ⟨hextension, -, hmismatch⟩ := h
  have hcount : ∀ (mismatch : Bool) (counts : ReceiveCounts),
      (if mismatch then { counts with lengthMismatches := counts.lengthMismatches + 1 }
        else counts) = counts.addMismatches mismatch.toNat := by
    rintro (_ | _) counts
    · rfl
    · rfl
  have hcounted : (if d'.mismatch then
      { counts.addMismatches extra with
        lengthMismatches := (counts.addMismatches extra).lengthMismatches + 1 }
      else counts.addMismatches extra) =
        (if d.mismatch then { counts with lengthMismatches := counts.lengthMismatches + 1 }
          else counts).addMismatches (extra + n) := by
    rw [hcount, hcount, ReceiveCounts.addMismatches_addMismatches,
      ReceiveCounts.addMismatches_addMismatches, hmismatch]
    congr 1
    omega
  unfold inspect
  rw [hcounted, hextension]
  generalize (if d.mismatch then { counts with lengthMismatches := counts.lengthMismatches + 1 }
    else counts) = counted
  dsimp only
  split
  · split_ifs
    · rfl
    · rfl
  · rfl

/-- The first block of a chain, whose flag says whether there are more. -/
lemma follows_decodeChain_cons {exts : List Extension} {block block' wire wire' : Bytes}
    {slot : ℕ} {rest rest' : Bytes} (hblock : ReadAlike c.weights (!exts.isEmpty) block block' n)
    (htail : Message.StretchedChain c.weights exts wire wire' k)
    (hnext : exts ≠ [] → ∀ room, Follows k (Leaves rest rest')
      (decodeChain c slot room (wire ++ rest)) (decodeChain c slot room (wire' ++ rest')))
    (room : ℕ) :
    Follows (n + k) (Leaves rest rest') (decodeChain c slot room (block ++ wire ++ rest))
      (decodeChain c slot room (block' ++ wire' ++ rest')) := by
  cases room with
  | zero => exact follows_throw _ _
  | succ room =>
    have hdecode : Follows 0 (fun d d' => d.Alike d' n ∧ d.more = !exts.isEmpty ∧
        d.length = block.length ∧ d'.length = block'.length)
          (liftM (Extension.decode (block ++ (wire ++ rest)) c.weights) : Step _)
          (liftM (Extension.decode (block' ++ (wire' ++ rest')) c.weights) : Step _) := by
      refine follows_lift fun d hd => ?_
      obtain ⟨d', hd', hlength', halike⟩ := hblock.alike hd
      exact ⟨d', hd' _, halike, (hblock.ends hd).1, (hblock.ends hd).2, hlength'⟩
    rw [List.append_assoc, List.append_assoc, decodeChain, decodeChain, ← Nat.zero_add (n + k)]
    refine hdecode.bind ?_
    rintro d d' ⟨halike, hmore, hlength, hlength'⟩
    refine (follows_count (inspect_alike halike)).bind fun _ _ _ => ?_
    dsimp only
    rw [halike.more_eq, halike.extension_eq, hmore, hlength, hlength', List.drop_left,
      List.drop_left]
    cases exts with
    | nil =>
      cases htail
      exact follows_pure ⟨rfl, rfl⟩
    | cons next exts =>
      refine Follows.bind (k := 0) (hnext (List.cons_ne_nil _ _) room) ?_
      rintro a _ ⟨hrest, rfl⟩
      exact follows_pure ⟨hrest, rfl⟩

/-- A chain is read like the stretched one.  By induction on the chain: what follows the first block
is at another place, but the same extensions. -/
lemma follows_decodeChain {exts : List Extension} {wire wire' : Bytes}
    (h : Message.StretchedChain c.weights exts wire wire' n) (hne : exts ≠ []) (slot room : ℕ)
    (rest rest' : Bytes) :
    Follows n (Leaves rest rest') (decodeChain c slot room (wire ++ rest))
      (decodeChain c slot room (wire' ++ rest')) := by
  induction h generalizing room with
  | nil => exact absurd rfl hne
  | @keep e exts encoded wire wire' n hencode htail ih =>
    rw [← Nat.zero_add n]
    exact follows_decodeChain_cons (readAlike_self hencode) htail ih room
  | @stretch e exts encoded wire wire' n filler hencode hcloses hfiller hdvd hwords htail ih =>
    rw [Nat.add_comm]
    exact follows_decodeChain_cons (readAlike_stretch hencode hcloses hfiller hdvd hwords) htail ih
      room

lemma follows_readExtensions {exts : List Extension} {wire wire' : Bytes}
    (h : Message.StretchedChain c.weights exts wire wire' n) (hplain : c.isSounding = false)
    (slot : ℕ) (rest rest' : Bytes) :
    Follows n (Leaves rest rest') (readExtensions c slot (!exts.isEmpty) (wire ++ rest))
      (readExtensions c slot (!exts.isEmpty) (wire' ++ rest')) := by
  cases exts with
  | nil =>
    cases h
    exact follows_pure ⟨rfl, rfl⟩
  | cons e exts =>
    have hchain := follows_decodeChain h (List.cons_ne_nil _ _) slot maxExtensions rest rest'
    rw [readExtensions, readExtensions, hplain]
    exact hchain

/-! ## Sections and messages -/

/-- A section with its extensions is read like the stretched one: its fixed part is the same. -/
lemma follows_readSection {s : ExtendedSection} {parsed : MessageHeader.Parsed} {wireId : ℕ}
    {body chain chain' : Bytes}
    (hbody : s.info.encode parsed.type wireId (!s.extensions.isEmpty) = .ok body)
    (hchain : Message.StretchedChain c.weights s.extensions chain chain' n)
    (hsupported : parsed.type.isSupported = true) (hplain : c.isSounding = false)
    (key : SectionKey) (slot index : ℕ) (rest rest' : Bytes) :
    Follows n (Leaves rest rest') (readSection c parsed key slot index (body ++ (chain ++ rest)))
      (readSection c parsed key slot index (body ++ (chain' ++ rest'))) := by
  obtain ⟨hparse, hdrop⟩ := Section.parse_encode hbody hsupported (chain ++ rest)
  obtain ⟨hparse', -⟩ := Section.parse_encode hbody hsupported (chain' ++ rest')
  have hextensions := follows_readExtensions hchain hplain slot rest rest'
  have hread : Follows n (Leaves rest rest')
      (readBody c parsed slot index (body ++ (chain ++ rest)))
      (readBody c parsed slot index (body ++ (chain' ++ rest'))) := by
    rw [readBody, readBody, hparse, hparse', hplain, ← hdrop, List.drop_left, List.drop_left,
      ← Nat.zero_add n, ← Nat.zero_add (0 + n)]
    refine Follows.bind (follows_pure (P := fun wire wire' =>
      wire = s.info.onWire parsed.type wireId (!s.extensions.isEmpty) ∧ wire' = wire)
        ⟨rfl, rfl⟩) ?_
    rintro _ _ ⟨rfl, rfl⟩
    refine (follows_same _).bind ?_
    rintro info _ rfl
    refine Follows.bind (k := 0) hextensions ?_
    rintro a _ ⟨hrest, rfl⟩
    exact follows_pure ⟨hrest, rfl⟩
  rw [readSection, readSection]
  refine Follows.bind (k := 0) hread ?_
  rintro a _ ⟨hrest, rfl⟩
  refine Follows.bind (k := 0) (follows_record key index a.1.info) fun _ _ _ => ?_
  refine Follows.bind (n := 0) (k := 0) (follows_count fun counts extra => rfl) fun _ _ _ => ?_
  exact follows_pure ⟨hrest, rfl⟩

/-- Sections are read like the stretched ones. -/
lemma follows_readSections {mu : Numerology} {tagging : IdTagging} {parsed : MessageHeader.Parsed}
    {sections : List ExtendedSection} {wire wire' : Bytes}
    (h : Message.StretchedSections mu tagging parsed.type c.weights sections wire wire' n)
    (hsupported : parsed.type.isSupported = true) (hplain : c.isSounding = false)
    (key : SectionKey) (slot index : ℕ) :
    Follows n (· = ·) (readSections c parsed key slot sections.length index wire)
      (readSections c parsed key slot sections.length index wire') := by
  generalize htype : parsed.type = type at h
  induction h generalizing index with
  | nil => exact follows_pure rfl
  | @cons s sections wireId body chain chain' wire wire' n k htag hbody hchain hsections ih =>
    subst htype
    rw [List.length_cons, readSections, readSections]
    refine (follows_readSection hbody hchain hsupported hplain key slot index wire wire').bind ?_
    rintro a _ ⟨rfl, rfl⟩
    refine Follows.bind (k := 0) (ih (index + 1)) ?_
    rintro others _ rfl
    exact follows_pure rfl

/-- A header is accepted in front of any sections. -/
lemma exists_acceptHeader {m : Message} {header : Bytes} (hvalid : m.validate = .ok ())
    (h : m.header.encode m.direction m.type m.sections.length = .ok header) :
    ∃ parsed : MessageHeader.Parsed, parsed.type = m.type ∧ parsed.sections = m.sections.length ∧
      header.length = m.type.headerLength ∧ ∀ rest, acceptHeader (header ++ rest) = .ok parsed := by
  have hcarried : m.carried.header.encode m.carried.direction m.carried.type
      m.carried.sections.length = .ok header := by
    rw [← h, ← MessageHeader.encode_carried m.header]
    simp [Message.carried]
  have haccept := acceptHeader_encode ((Message.validate_carried m).trans hvalid) hcarried
    fun _ => m.header.carried_le
  exact ⟨_, rfl, List.length_map .., (haccept []).2, fun rest => (haccept rest).1⟩

/-- A message is read like the stretched one. -/
lemma follows_readMessage {m : Message} {mu : Numerology} {tagging : IdTagging}
    {wire wire' : Bytes} (hvalid : m.validate = .ok ())
    (h : m.Stretched mu tagging c.weights wire wire' n) (hplain : c.isSounding = false) :
    Follows n (· = ·) (readMessage c wire) (readMessage c wire') := by
  obtain @⟨header, wire, wire', n, hheader, hsections⟩ := h
  obtain ⟨hsupported, -⟩ := Message.validate_eq_ok hvalid
  obtain ⟨parsed, htype, hcount, hlength, haccept⟩ := exists_acceptHeader hvalid hheader
  rw [← htype] at hsections hsupported hlength
  have hread := follows_readSections hsections hsupported hplain (bucketKey c parsed)
    (c.mu.slotIndex parsed.header.slotTime) 0
  rw [← hcount] at hread
  rw [readMessage, readMessage, haccept, haccept, ← Nat.zero_add n]
  refine Follows.bind (follows_pure (P := fun a b => a = parsed ∧ b = a) ⟨rfl, rfl⟩) ?_
  rintro _ _ ⟨rfl, rfl⟩
  rw [← hlength, List.drop_left, List.drop_left]
  refine Follows.bind (k := 0) hread ?_
  rintro sections _ rfl
  exact follows_pure rfl

/-- A packet that is taken in is taken in with longer extensions as well. -/
lemma run_receive_stretched {m : Message} {mu : Numerology} {tagging : IdTagging}
    {wire wire' : Bytes} (hvalid : m.validate = .ok ())
    (h : m.Stretched mu tagging c.weights wire wire' n) (hplain : c.isSounding = false)
    {r after : Receiver} {received : Message}
    (hrun : (receive c wire).run r = (.ok received, after)) :
    (receive c wire').run r = (.ok received, after.addMismatches n) := by
  rw [run_receive] at hrun ⊢
  rcases hread : (readMessage c wire).run
      { r with counts := { r.counts with packets := r.counts.packets + 1 } } with ⟨e | m', after'⟩
  · rw [hread] at hrun
    cases hrun
  · rw [hread] at hrun
    cases hrun
    obtain ⟨_, rfl, hread'⟩ := follows_readMessage hvalid h hplain hread
    have hplus := hread' 0
    rw [Nat.zero_add] at hplus
    have hsame : Receiver.addMismatches
        { r with counts := { r.counts with packets := r.counts.packets + 1 } } 0 =
          { r with counts := { r.counts with packets := r.counts.packets + 1 } } := rfl
    rw [hsame] at hplus
    rw [hplus]

/-- A packet that a receiver accepts gives it the same message when some extensions are longer; what is
counted is the same but for one more mismatch for each of these extensions. -/
lemma parse_of_stretched {m : Message} {mu : Numerology} {tagging : IdTagging}
    {memory after : Memory} {packet : Packet}
    (h : (m.encode mu tagging).run memory = (.ok packet, after)) (hplain : c.isSounding = false)
    {counts : ReceiveCounts} {received : Message}
    (hparse : (parse c packet.wire counts).1 = .ok received) {wire : Bytes}
    (hstretched : m.Stretched mu tagging c.weights packet.wire wire n) :
    (parse c wire counts).1 = .ok received ∧
      (parse c wire counts).2 = { (parse c packet.wire counts).2 with
        lengthMismatches := (parse c packet.wire counts).2.lengthMismatches + n } := by
  obtain ⟨hvalid, -⟩ := Message.run_encode_eq_ok h
  rcases hrun : (receive c packet.wire).run { counts } with ⟨result, final⟩
  have hresult : parse c packet.wire counts = (result, final.counts) := by rw [parse, hrun]
  rw [hresult] at hparse
  obtain rfl : result = .ok received := hparse
  have hlonger := run_receive_stretched hvalid hstretched hplain hrun
  rw [hresult, parse, hlonger]
  exact ⟨rfl, rfl⟩

/-- The announced length frames an extension whatever its contents are.  A packet that a receiver
accepts gives it the same message when some extensions get more words at their ends, of those kinds
that say themselves where they end; what is counted is the same but for one more mismatch for each
of these extensions.  And of any data that is read as an extension, the contents are whole words of
the announced length, and this is whole words of the data. -/
theorem parse_stretched :
    (∀ (c : FlowContext) (m : Message) (mu : Numerology) (tagging : IdTagging)
        (memory after : Memory) (packet : Packet) (counts : ReceiveCounts) (received : Message),
      (m.encode mu tagging).run memory = (.ok packet, after) → c.isSounding = false →
      (parse c packet.wire counts).1 = .ok received →
        ∀ wire n, m.Stretched mu tagging c.weights packet.wire wire n →
          (parse c wire counts).1 = .ok received ∧
            (parse c wire counts).2 = { (parse c packet.wire counts).2 with
              lengthMismatches := (parse c packet.wire counts).2.lengthMismatches + n }) ∧
      ∀ (data : Bytes) (weights : Option UInt16) (d : Decoded),
        Extension.decode data weights = .ok d →
          d.consumed ≤ d.length ∧ d.length ≤ data.length ∧ 4 ∣ d.consumed ∧ 4 ∣ d.length := by
  constructor
  · intro c m mu tagging memory after packet counts received h hplain hparse wire n hstretched
    exact parse_of_stretched h hplain hparse hstretched
  · intro data weights d h
    exact within_of_decode h

namespace LongerExtensions

/-- A vector of one weight. -/
def vector : Extension :=
  .beamWeights ⟨16, .none, [⟨1, -1⟩]⟩

/-- One bundle of one weight. -/
def bundle : Extension :=
  .weightBundles
    { bundlePrbs := 2, method := .none, width := 16, count := 1
      payload := ⟨1, [0, 3, 0, 1, 255, 255]⟩ }

/-- A message with a mask between them. -/
def message : Message where
  direction := .dl
  type := .regular
  header := { frame := 7, slot := 1, iqWidth := 9, compression := .blockFloatingPoint }
  sections := [⟨{ id := 5, numPrb := 12, numSymbols := 14, reMask := 0xfff },
    [vector, .antennaMask 3, bundle]⟩]

/-- The packet of the message. -/
def plainWire : Bytes :=
  [144, 7, 0, 64, 1, 1, 145, 0, 64, 80, 0, 12, 255, 254, 128, 0,
    129, 2, 0, 0, 1, 255, 255, 0, 135, 1, 0, 3,
    11, 0, 4, 0, 2, 0, 0, 1, 0, 3, 0, 1, 255, 255, 0, 0]

/-- The packet with a word more behind the vector, and two words behind the bundle. -/
def stretchedWire : Bytes :=
  [144, 7, 0, 64, 1, 1, 145, 0, 64, 80, 0, 12, 255, 254, 128, 0,
    129, 3, 0, 0, 1, 255, 255, 0, 9, 9, 9, 9, 135, 1, 0, 3,
    11, 0, 6, 0, 2, 0, 0, 1, 0, 3, 0, 1, 255, 255, 0, 0, 7, 7, 7, 7, 8, 8, 8, 8]

lemma stretched_plainWire :
    message.Stretched .khz30 (.highBits 2) (some 1) plainWire stretchedWire 2 := by
  have hheader : message.header.encode .dl .regular 1 = .ok [144, 7, 0, 64, 1, 1, 145, 0] := rfl
  have hbody : (message.sections[0].info).encode .regular 1029 true =
      .ok [64, 80, 0, 12, 255, 254, 128, 0] := rfl
  have hvector : vector.encode true = .ok (.inline [129, 2, 0, 0, 1, 255, 255, 0]) := rfl
  have hmask : (Extension.antennaMask 3).encode true = .ok (.inline [135, 1, 0, 3]) := rfl
  have hbundle : bundle.encode false =
      .ok (.split [11, 0, 4, 0, 2, 0, 0, 1] ⟨1, [0, 3, 0, 1, 255, 255]⟩ 2) := rfl
  have hvectorCloses : vector.Closed (some 1) := ⟨1, rfl, rfl⟩
  have hbundleCloses : bundle.Closed (some 1) := ⟨rfl, .inr rfl⟩
  have hword : ([9, 9, 9, 9] : Bytes) ≠ [] := nofun
  have hwords : ([7, 7, 7, 7, 8, 8, 8, 8] : Bytes) ≠ [] := nofun
  have hchain := Message.StretchedChain.stretch hvector hvectorCloses hword (by decide) (by decide)
    (.keep hmask (.stretch hbundle hbundleCloses hwords (by decide) (by decide) .nil))
  have hsections : Message.StretchedSections .khz30 (.highBits 2) .regular (some 1)
      message.sections _ _ (2 + 0) := .cons rfl hbody hchain .nil
  exact .mk (m := message) hheader hsections

/-- A receiver of the message. -/
def context : FlowContext where
  mu := .khz30
  carrier := 0
  antenna := 0
  weights := some 1
  tagging := .highBits 2

/-- The longer packet says the same, and both of the longer extensions are counted. -/
theorem parse_stretched_message :
    ∃ packet after received,
      (message.encode .khz30 (.highBits 2)).run {} = (.ok packet, after) ∧
        message.Stretched .khz30 (.highBits 2) (some 1) packet.wire stretchedWire 2 ∧
        (parse context packet.wire {}).1 = .ok received ∧
        (parse context stretchedWire {}).1 = .ok received ∧
        (parse context stretchedWire {}).2.lengthMismatches = 2 ∧
        ∃ d, Extension.decode [135, 2, 0, 3, 1, 1, 1, 1] none = .ok d ∧
          d.consumed ≤ d.length ∧ d.length ≤ 8 ∧ 4 ∣ d.consumed ∧ 4 ∣ d.length := by
  obtain ⟨packet, after, hencode, hwire⟩ : ∃ packet after,
      (message.encode .khz30 (.highBits 2)).run {} = (.ok packet, after) ∧
        packet.wire = plainWire := ⟨_, _, rfl, rfl⟩
  obtain ⟨received, hparse, hcounts⟩ : ∃ received, (parse context plainWire {}).1 = .ok received ∧
      (parse context plainWire {}).2.lengthMismatches = 0 := ⟨_, rfl, rfl⟩
  obtain ⟨d, hd⟩ : ∃ d, Extension.decode [135, 2, 0, 3, 1, 1, 1, 1] none = .ok d := ⟨_, rfl⟩
  have hstretched := stretched_plainWire
  rw [← hwire] at hparse hcounts hstretched
  obtain ⟨hsame, hframed⟩ := parse_stretched
  obtain ⟨hparse', hcounts'⟩ :=
    hsame context _ _ _ _ _ _ _ _ hencode rfl hparse stretchedWire 2 hstretched
  refine ⟨packet, after, received, hencode, hstretched, hparse, hparse', ?_, d, hd,
    hframed _ _ _ hd⟩
  rw [hcounts']
  exact congrArg (· + 2) hcounts

end LongerExtensions

end Receiver

end OpenFronthaul
