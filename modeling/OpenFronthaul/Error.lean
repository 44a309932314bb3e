import OpenFronthaul.Extension.Kind
import OpenFronthaul.Section.Basic
import OpenFronthaul.Timing.Callback

/-!
# Failures

Every operation that can fail names the cause.  A cause of the transport layer is a `LinkError`,
any other an `Error`; both belong to a class (`kind`) and have a text (`detail`), and a message is
the heading of the class followed by the text.  The class of an `Error` decides its status code.
-/

namespace OpenFronthaul

/-- A number below the given base in that base, lower case, with a mark for base sixteen. -/
def hexNumber (n : Nat) : String :=
  "0x" ++ String.ofList (Nat.toDigits 16 n)

/-! ## Transport layer -/

/-- Causes of failure in framing, buffers and workers. -/
inductive LinkError where
  /-- The protocol revision of a frame is not the supported one. -/
  | revision (found : Nat)
  /-- The payload size does not fit its field. -/
  | payloadSize (size : Nat)
  /-- A byte string is shorter than what it must hold. -/
  | shortBuffer (needed available : Nat)
  /-- Every slot of the packet pool is taken. -/
  | poolExhausted (inUse : Nat)
  /-- The fields of the antenna-carrier id need more than sixteen bits. -/
  | idLayout (bits : Nat)
  /-- A pool of workers without a worker. -/
  | noWorkers
  /-- A worker that does not exist or takes no jobs. -/
  | workerUnavailable (worker : Nat)
  /-- A malformed message, in the words of the application. -/
  | malformed (text : String)
  /-- An unusable setting, in the words of the application. -/
  | unusable (text : String)
deriving DecidableEq

namespace LinkError

/-- The classes of failures of the transport layer. -/
inductive Kind where
  | invalidMessage
  | shortBuffer
  | bufferFull
  | invalidConfig
  | workerUnavailable
deriving DecidableEq

/-- The class of a failure. -/
def kind : LinkError → Kind
  | revision _ | payloadSize _ | malformed _ => .invalidMessage
  | shortBuffer _ _ => .shortBuffer
  | poolExhausted _ => .bufferFull
  | idLayout _ | noWorkers | unusable _ => .invalidConfig
  | workerUnavailable _ => .workerUnavailable

/-- The message of a failure. -/
def message : LinkError → String
  | revision found => s!"Invalid message format: eCPRI revision {found} not supported"
  | payloadSize size => s!"Invalid message format: payload size {size} exceeds 16 bits"
  | malformed text => s!"Invalid message format: {text}"
  | shortBuffer needed available =>
    s!"Buffer too short: need {needed} bytes, have {available}"
  | poolExhausted inUse => s!"Buffer pool exhausted ({inUse} buffers in flight)"
  | idLayout bits =>
    s!"Invalid configuration: eAxC id fields use {bits} bits, at most 16 allowed"
  | noWorkers => "Invalid configuration: worker pool needs at least one worker"
  | unusable text => s!"Invalid configuration: {text}"
  | workerUnavailable worker => s!"Worker {worker} is not available"

end LinkError

/-! ## Wire names -/

/-- A stretch of a received message. -/
inductive Piece where
  | commonHeader
  | typeHeader (type : SectionType)
  | sectionBody
  | extension
  | extensionLength
  | body (kind : ExtensionKind)
  | exponent
  | weights
  | attributes
  | sidelobe
  | firstLayer
  | groupBeams
  | bundleBeams
  | bundles
  | packedWeights
deriving DecidableEq

/-- The words for a stretch of a message. -/
def Piece.name : Piece → String
  | commonHeader => "common header"
  | typeHeader type => s!"section type {type.code} header"
  | sectionBody => "section"
  | extension => "extension"
  | extensionLength => "extension length"
  | body kind => s!"extension {kind.code}"
  | exponent => "extension 1 exponent"
  | weights => "extension 1 weights"
  | attributes => "extension 2 parameters"
  | sidelobe => "extension 2 sidelobe byte"
  | firstLayer => "extension 3 first layer"
  | groupBeams => "extension 10 beam ids"
  | bundleBeams => "extension 11 beam ids"
  | bundles => "extension 11 bundles"
  | packedWeights => "beamforming weights"

/-- A field of a message that has fewer bits than the value to be put into it may need. -/
inductive WireField where
  | filterIndex
  | subframe
  | slot
  | startSymbol
  | sectionId
  | startPrb
  | reMask
  | numSymbols
  | beamId
  | frequencyOffset
  | weightWidth
  | layerId
  | numLayers
  | txScheme
  | crsSymbol
  | exponent
  | numAntennas
  | attributeWidth
  | modulationScaler
  | crsReMask
  | groupMask
  | symbolMask
deriving DecidableEq

namespace WireField

/-- The name of a field in the standard. -/
def name : WireField → String
  | filterIndex => "filterIndex"
  | subframe => "subframeId"
  | slot => "slotId"
  | startSymbol => "startSymbolId"
  | sectionId => "sectionId"
  | startPrb => "startPrbc"
  | reMask => "reMask"
  | numSymbols => "numSymbol"
  | beamId => "beamId"
  | frequencyOffset => "freqOffset"
  | weightWidth => "bfwIqWidth"
  | layerId => "layerId"
  | numLayers => "numLayers"
  | txScheme => "txScheme"
  | crsSymbol => "crsSymNum"
  | exponent => "exponent"
  | numAntennas => "numPortc"
  | attributeWidth => "bfa width code"
  | modulationScaler => "modCompScaler"
  | crsReMask => "crsReMask"
  | groupMask => "rbgMask"
  | symbolMask => "symbolMask"

/-- Whether the values of a field are shown in hexadecimal. -/
def isMask : WireField → Bool
  | modulationScaler | crsReMask | groupMask | symbolMask => true
  | _ => false

/-- A value of a field as it is shown. -/
def showValue (field : WireField) (value : Nat) : String :=
  if field.isMask then hexNumber value else toString value

end WireField

/-! ## All other failures -/

/-- The classes of failures of the control plane. -/
inductive ErrorKind where
  | fail
  | retry
  | resource
  | invalidParameter
  | fatal
  | unsupported
  | invalidPacket
deriving DecidableEq

namespace ErrorKind

/-- The heading of a class in messages. -/
def heading : ErrorKind → String
  | fail => "Operation failed"
  | retry => "Temporarily unavailable, retry"
  | resource => "Resource exhausted"
  | invalidParameter => "Invalid parameter"
  | fatal => "Fatal error"
  | unsupported => "Unsupported"
  | invalidPacket => "Invalid packet"

/-- The status code of a class; success has status zero. -/
def status : ErrorKind → Int
  | fail => -1
  | retry => -2
  | resource => -3
  | invalidParameter => -4
  | fatal => -5
  | unsupported => -6
  | invalidPacket => -7

end ErrorKind

/-- The class that a failure of the transport layer belongs to in the control plane. -/
def LinkError.controlKind (e : LinkError) : ErrorKind :=
  match e.kind with
  | .bufferFull => .resource
  | .shortBuffer | .invalidMessage => .invalidPacket
  | .invalidConfig => .invalidParameter
  | .workerUnavailable => .retry

/-- Causes of failure of the control plane. -/
inductive Error where
  -- failed operations
  | weightsNotWritten (method : WeightCompression)
  | tooManyBundles (sets mtu most : Nat)
  | frameTooLong (length mtu : Nat)
  -- exhausted resources
  | bucketFull (key : SectionKey) (capacity : Nat)
  | callbackTaken (moment : Moment) (symbol : Nat)
  -- unsupported contents
  | sectionTypeUnsupported (type : SectionType)
  | weightsUnsupported (method : WeightCompression)
  | beamspaceUnsupported
  -- malformed packets
  | truncated (piece : Piece)
  | tooShort (piece : Piece) (needed available : Nat)
  | payloadVersion (version : Nat)
  | unknownSectionType (code : Nat)
  | unknownCompression (code : Nat)
  | unknownExtension (code : Nat)
  | unknownWeightCompression (code : Nat)
  | unknownGroupSize (code : Nat)
  | unknownGroupType (code : Nat)
  | unknownTechnology (code : Nat)
  | declaredSections (count : Nat)
  | noElementForAntenna (index : Nat) (antenna : UInt8)
  | chainTooLong
  | chainPastEnd
  | zeroLength (kind : ExtensionKind)
  | bundleHeaderCut (length : Nat)
  | bundlesPastRegion (length region : Nat)
  | precodingLength (words : Nat)
  | noModulationSets
  -- invalid parameters
  | outOfRange (field : WireField) (value : Int)
  | tooWide (field : WireField) (value bits : Nat)
  | attributeTooWide (value bits : Nat)
  | sidelobeTooWide
  | weightTooWide (value : Int) (bits : Nat)
  | extensionTooLong (kind : ExtensionKind) (length : Nat)
  | bundlesTooLong (length : Nat)
  | bundleCount (count : Nat)
  | beamCount (count : Nat)
  | weightCountUnknown
  | groupBeamCount (given antennas : Nat)
  | beamsWithoutList
  | precodingBeamCount (given : Nat)
  | modulationSetCount (count : Nat)
  | modulationSetRange (reMask : Nat) (shifted : Bool) (offset : Nat)
  | groupSize (size : Nat)
  | technologyPeriod (slots : Nat)
  | category (code : Nat)
  | tagWidth (bits : Nat)
  | tagTooNarrow (mu bits : Nat)
  | idTooLarge (id most : Nat) (tagging : IdTagging)
  | sectionCount (count : Nat)
  | extensionCount (sectionId count : Nat)
  | bundlesNotLast
  | storeShape (carriers antennas : Nat)
  | keyOutOfRange (key : SectionKey)
  | patternLength (pattern : String) (symbols : Nat)
  | patternSymbol (symbol : Char) (pattern : String)
  | tddPeriod (slots : Nat)
  | elementEmpty (index : Nat)
  | elementSymbols (index start count : Nat)
  | elementCount (count : Nat)
  | noWeightBuffer
  | alreadyRunning
  | callbacksFixed
  | spreadParts (count : Nat)
  | symbolOutOfRange (symbol : Nat)
  | noCallback (moment : Moment) (symbol : Nat)
  -- failures of other layers
  | link (cause : LinkError)
  | reported (kind : ErrorKind) (text : String)
deriving DecidableEq

namespace Error

/-- The class of a failure. -/
def kind : Error → ErrorKind
  | weightsNotWritten _ | tooManyBundles _ _ _ | frameTooLong _ _ => .fail
  | bucketFull _ _ | callbackTaken _ _ => .resource
  | sectionTypeUnsupported _ | weightsUnsupported _ | beamspaceUnsupported => .unsupported
  | truncated _ | tooShort _ _ _ | payloadVersion _ | unknownSectionType _
  | unknownCompression _ | unknownExtension _ | unknownWeightCompression _ | unknownGroupSize _
  | unknownGroupType _ | unknownTechnology _ | declaredSections _ | noElementForAntenna _ _
  | chainTooLong | chainPastEnd | zeroLength _ | bundleHeaderCut _ | bundlesPastRegion _ _
  | precodingLength _ | noModulationSets => .invalidPacket
  | outOfRange _ _ | tooWide _ _ _ | attributeTooWide _ _ | sidelobeTooWide | weightTooWide _ _
  | extensionTooLong _ _ | bundlesTooLong _ | bundleCount _ | beamCount _ | weightCountUnknown
  | groupBeamCount _ _ | beamsWithoutList | precodingBeamCount _ | modulationSetCount _
  | modulationSetRange _ _ _ | groupSize _ | technologyPeriod _ | category _ | tagWidth _
  | tagTooNarrow _ _ | idTooLarge _ _ _ | sectionCount _ | extensionCount _ _ | bundlesNotLast
  | storeShape _ _ | keyOutOfRange _ | patternLength _ _ | patternSymbol _ _ | tddPeriod _
  | elementEmpty _ | elementSymbols _ _ _ | elementCount _ | noWeightBuffer | alreadyRunning
  | callbacksFixed | spreadParts _ | symbolOutOfRange _ | noCallback _ _ => .invalidParameter
  | link cause => cause.controlKind
  | reported kind _ => kind

/-- The text of a failure, without the heading of its class. -/
def detail : Error → String
  | weightsNotWritten method => s!"weight compression {method.name} cannot be encoded"
  | tooManyBundles sets mtu most =>
    s!"{sets} weight sets do not fit MTU {mtu}, at most {most}"
  | frameTooLong length mtu => s!"packet of {length} bytes exceeds MTU {mtu}"
  | bucketFull key capacity =>
    s!"section database bucket {key.describe} full ({capacity} sections)"
  | callbackTaken moment symbol =>
    s!"{moment.name} callback already registered on symbol {symbol}"
  | sectionTypeUnsupported type => s!"section type {type.name}"
  | weightsUnsupported method => s!"weight compression {method.name}"
  | beamspaceUnsupported => "beamspace weight compression"
  | truncated piece => s!"truncated {piece.name}"
  | tooShort piece needed available =>
    s!"truncated {piece.name}: need {needed} bytes, have {available}"
  | payloadVersion version => s!"payload version {version}"
  | unknownSectionType code => s!"unknown section type {code}"
  | unknownCompression code => s!"unknown compression method {code}"
  | unknownExtension code => s!"unknown extension type {code}"
  | unknownWeightCompression code => s!"unknown bfwCompMeth {code}"
  | unknownGroupSize code => s!"rbgSize code {code}"
  | unknownGroupType code => s!"beam group type {code}"
  | unknownTechnology code => s!"DSS technology {code}"
  | declaredSections count => s!"numOfSections {count}"
  | noElementForAntenna index antenna => s!"no PRB element {index} for RU port {antenna.toNat}"
  | chainTooLong => "more than 10 extensions"
  | chainPastEnd => "extension chain past end of packet"
  | zeroLength kind => s!"extension {kind.name} with zero extLen"
  | bundleHeaderCut length => s!"extension 11 extLen {length} bytes"
  | bundlesPastRegion length region =>
    s!"extension 11 payload of {length} bytes exceeds extLen region of {region}"
  | precodingLength words => s!"extension 3 with extLen {words}"
  | noModulationSets => "extension 5 without parameter sets"
  | outOfRange field value => s!"{field.name} {value} out of range"
  | tooWide field value bits => s!"{field.name} {field.showValue value} exceeds {bits} bits"
  | attributeTooWide value bits => s!"bfa parameter {value} does not fit {bits} bits"
  | sidelobeTooWide => "sidelobe suppression exceeds 3 bits"
  | weightTooWide value bits => s!"weight {value} does not fit {bits} bits"
  | extensionTooLong kind length => s!"extension {kind.name} too long ({length} bytes)"
  | bundlesTooLong length => s!"extension 11 of {length} bytes"
  | bundleCount count => s!"{count} weight sets"
  | beamCount count => s!"{count} beam ids"
  | weightCountUnknown => "extension 1 needs the number of weights"
  | groupBeamCount given antennas => s!"{given} beam ids for {antennas} ports"
  | beamsWithoutList => "beam ids only go with a vector list"
  | precodingBeamCount given => s!"{given} port beam ids, expected 1 or 3"
  | modulationSetCount count => s!"{count} modulation compression sets"
  | modulationSetRange reMask shifted offset =>
    s!"modulation compression set ModCompSet \x7b mc_scale_re_mask: {reMask}, csf: {shifted}, "
      ++ s!"mc_scale_offset: {offset} \x7d out of range"
  | groupSize size => s!"rbgSize {size} not one of [1, 2, 3, 4, 8, 16]"
  | technologyPeriod slots => s!"DSS period {slots} not in 1..=15"
  | category code => s!"unsupported category {code}"
  | tagWidth bits => s!"numerology tag of {bits} bits"
  | tagTooNarrow mu bits => s!"mu {mu} does not fit a {bits} bit tag"
  | idTooLarge id most tagging => s!"section id {id} exceeds {most} for {tagging.describe}"
  | sectionCount count => s!"{count} sections, expected 1..=32"
  | extensionCount sectionId count =>
    s!"section {sectionId} has {count} extensions, at most 10"
  | bundlesNotLast => "extension 11 must be the last extension of the last section"
  | storeShape carriers antennas => s!"section database for {carriers} carriers x {antennas} eAxC"
  | keyOutOfRange key => s!"section database key {key.describe} out of range"
  | patternLength pattern symbols =>
    s!"slot pattern '{pattern}' has {symbols} symbols, expected 14"
  | patternSymbol symbol pattern => s!"unknown symbol type '{symbol}' in '{pattern}'"
  | tddPeriod slots => s!"TDD period {slots} not in 1..=80"
  | elementEmpty index => s!"PRB element {index} has no PRBs"
  | elementSymbols index start count =>
    s!"PRB element {index} symbols {start}+{count} exceed the slot"
  | elementCount count => s!"{count} PRB elements"
  | noWeightBuffer => "bundled weight update without a weight buffer"
  | alreadyRunning => "interface already running"
  | callbacksFixed => "callbacks cannot change while running"
  | spreadParts count => s!"{count} spread symbols"
  | symbolOutOfRange symbol => s!"symbol {symbol} out of range"
  | noCallback moment symbol => s!"no {moment.name} callback on symbol {symbol}"
  | link cause => cause.message
  | reported _ text => text

/-- The message of a failure. -/
def message (e : Error) : String :=
  e.kind.heading ++ ": " ++ e.detail

/-- The status code of a failure. -/
def status (e : Error) : Int :=
  e.kind.status

end Error

/-- A failure of the transport layer stands as it is among those of the control plane. -/
def liftLink {α : Type} (result : Except LinkError α) : Except Error α :=
  result.mapError Error.link

end OpenFronthaul
