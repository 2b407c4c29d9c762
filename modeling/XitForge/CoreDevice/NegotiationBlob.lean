import XitForge.CoreDevice.Protobuf
import XitForge.RustEval
import XitForge.RustText

/-!
The messages of the media negotiation. Each has a table of field numbers that it is written
with, and another one that it is read with; texts and bytes are left out where they are
empty. The offer is the blob, compressed.
-/
namespace XitForge.CoreDevice.Negotiation

open ByteStream RustEval RustText Program Protobuf

structure GeneralInfo where
  ntpTime : UInt64 := 0
  cname : String := ""
  abSwitches : UInt32 := 0
  screenRes : UInt32 := 0
  fecHeaderVersion : UInt32 := 0
  rtxVersion : UInt32 := 0
  deriving DecidableEq

structure BandwidthSettings where
  cap2g : UInt32 := 0
  cap3g : UInt32 := 0
  capLte : UInt32 := 0
  cap5g : UInt32 := 0
  capWifi : UInt32 := 0
  deriving DecidableEq

structure CodecFeatures where
  audioFeatures : UInt32 := 0
  videoFeatures : Bytes := []
  deriving DecidableEq

structure StreamGroupPayload where
  codecType : UInt32 := 0
  rtpPayload : UInt32 := 0
  pTime : UInt32 := 0
  rtcpFlags : UInt32 := 0
  mediaFlags : UInt32 := 0
  profileLevelId : UInt32 := 0
  rtpSampleRate : UInt32 := 0
  cipherSuite : UInt32 := 0
  packedPayload : Bytes := []
  encoderUsage : UInt32 := 0
  deriving DecidableEq

structure StreamGroupStream where
  metadata : UInt32 := 0
  payloadSpecOrPayloads : UInt32 := 0
  qualityIndex : UInt32 := 0
  rtpSsrc : UInt32 := 0
  streamId : UInt32 := 0
  maxNetworkBitrate : UInt32 := 0
  repairedMaxNetworkBitrate : UInt32 := 0
  audioChannelCount : UInt32 := 0
  streamIndex : UInt32 := 0
  requiredPackedPayload : Bytes := []
  optionalPackedPayload : Bytes := []
  coordinateSystem : UInt32 := 0
  payloadsVersion : UInt32 := 0
  maxNetworkBitrateV2 : UInt32 := 0
  repairedMaxNetworkBitrateV2 : UInt32 := 0
  deriving DecidableEq

structure EncodeDecodeFeatures where
  rtpPayload : UInt32 := 0
  encodeDecodeFeatures : Bytes := []
  deriving DecidableEq

structure SettingsU1 where
  rtpSsrc : UInt32 := 0
  encodeDecodeFeatures : List EncodeDecodeFeatures := []
  deriving DecidableEq

structure StreamGroup where
  streamGroup : UInt32 := 0
  payloads : List StreamGroupPayload := []
  streams : List StreamGroupStream := []
  settingsU1 : Option SettingsU1 := none
  deriving DecidableEq

structure MediaNegotiationBlob where
  generalInfo : Option GeneralInfo := none
  bandwidthSettings : Option BandwidthSettings := none
  codecFeatures : Option CodecFeatures := none
  streamGroups : List StreamGroup := []
  deriving DecidableEq

/-- `CoreDeviceError::Negotiation`. -/
inductive NegotiationError where
  | negotiation (text : String)
  deriving DecidableEq, Repr

def stringField (e : Encoder) (field : ℕ) (v : String) : Encoder :=
  e.bytesField field (utf8 v.toList)

/-- An `if let` or a `for` around a message field. -/
def messageFields {M : Type} (encodeInto : M → Encoder → Encoder) (field : ℕ) (messages : List M)
    (e : Encoder) : Encoder :=
  messages.foldl (fun e message => e.messageField field (encodeInto message)) e

section Encoding

def GeneralInfo.encodeInto (g : GeneralInfo) (e : Encoder) : Encoder :=
  let e := e.uintField 1 g.ntpTime.toNat
  let e := if g.cname ≠ "" then stringField e 2 g.cname else e
  let e := e.uintField 3 g.abSwitches.toNat
  let e := e.uintField 4 g.screenRes.toNat
  let e := e.uintField 5 g.fecHeaderVersion.toNat
  e.uintField 6 g.rtxVersion.toNat

def BandwidthSettings.encodeInto (s : BandwidthSettings) (e : Encoder) : Encoder :=
  let e := e.uintField 1 s.cap2g.toNat
  let e := e.uintField 2 s.cap3g.toNat
  let e := e.uintField 3 s.capLte.toNat
  let e := e.uintField 4 s.cap5g.toNat
  e.uintField 5 s.capWifi.toNat

def CodecFeatures.encodeInto (c : CodecFeatures) (e : Encoder) : Encoder :=
  let e := e.uintField 1 c.audioFeatures.toNat
  if c.videoFeatures ≠ [] then e.bytesField 2 c.videoFeatures else e

def StreamGroupPayload.encodeInto (p : StreamGroupPayload) (e : Encoder) : Encoder :=
  let e := e.uintField 1 p.codecType.toNat
  let e := e.uintField 2 p.rtpPayload.toNat
  let e := e.uintField 3 p.pTime.toNat
  let e := e.uintField 4 p.rtcpFlags.toNat
  let e := e.uintField 5 p.mediaFlags.toNat
  let e := e.uintField 6 p.profileLevelId.toNat
  let e := e.uintField 7 p.rtpSampleRate.toNat
  let e := e.uintField 8 p.cipherSuite.toNat
  let e := if p.packedPayload ≠ [] then e.bytesField 9 p.packedPayload else e
  e.uintField 10 p.encoderUsage.toNat

def StreamGroupStream.encodeInto (s : StreamGroupStream) (e : Encoder) : Encoder :=
  let e := e.uintField 1 s.metadata.toNat
  let e := e.uintField 2 s.payloadSpecOrPayloads.toNat
  let e := e.uintField 3 s.qualityIndex.toNat
  let e := e.uintField 4 s.rtpSsrc.toNat
  let e := e.uintField 5 s.streamId.toNat
  let e := e.uintField 6 s.maxNetworkBitrate.toNat
  let e := e.uintField 7 s.repairedMaxNetworkBitrate.toNat
  let e := e.uintField 8 s.audioChannelCount.toNat
  let e := e.uintField 9 s.streamIndex.toNat
  let e := if s.requiredPackedPayload ≠ [] then e.bytesField 10 s.requiredPackedPayload else e
  let e := if s.optionalPackedPayload ≠ [] then e.bytesField 11 s.optionalPackedPayload else e
  let e := e.uintField 12 s.coordinateSystem.toNat
  let e := e.uintField 13 s.payloadsVersion.toNat
  let e := e.uintField 14 s.maxNetworkBitrateV2.toNat
  e.uintField 15 s.repairedMaxNetworkBitrateV2.toNat

def EncodeDecodeFeatures.encodeInto (f : EncodeDecodeFeatures) (e : Encoder) : Encoder :=
  let e := e.uintField 1 f.rtpPayload.toNat
  if f.encodeDecodeFeatures ≠ [] then e.bytesField 2 f.encodeDecodeFeatures else e

def SettingsU1.encodeInto (s : SettingsU1) (e : Encoder) : Encoder :=
  let e := e.uintField 1 s.rtpSsrc.toNat
  messageFields EncodeDecodeFeatures.encodeInto 2 s.encodeDecodeFeatures e

def StreamGroup.encodeInto (g : StreamGroup) (e : Encoder) : Encoder :=
  let e := e.uintField 1 g.streamGroup.toNat
  let e := messageFields StreamGroupPayload.encodeInto 2 g.payloads e
  let e := messageFields StreamGroupStream.encodeInto 3 g.streams e
  messageFields SettingsU1.encodeInto 4 g.settingsU1.toList e

/-- `MediaNegotiationBlob::encode`. -/
def MediaNegotiationBlob.encode (b : MediaNegotiationBlob) : Bytes :=
  let e := Encoder.new
  let e := messageFields GeneralInfo.encodeInto 1 b.generalInfo.toList e
  let e := messageFields BandwidthSettings.encodeInto 2 b.bandwidthSettings.toList e
  let e := messageFields CodecFeatures.encodeInto 3 b.codecFeatures.toList e
  let e := messageFields StreamGroup.encodeInto 7 b.streamGroups e
  e.buf

end Encoding

section Decoding

/-- The fields of a buffer, up to the end or to the first one that is malformed. -/
def fieldsOf (checks : Bool) (buf : Bytes) : Eval NegotiationError (List (ℕ × Field)) :=
  match (Decoder.fields checks (Decoder.new buf)).1 with
  | .done found => .ok found
  | _ => .panic

def foldFields {M : Type} (step : M → ℕ × Field → Eval NegotiationError M) :
    M → List (ℕ × Field) → Eval NegotiationError M
  | out, [] => .ok out
  | out, field :: rest => do
    let out ← step out field
    foldFields step out rest

/-- `while let Some(field) = d.next_field()`; what is done with a field does not change
what the next one is. -/
def decodeWith {M : Type} (checks : Bool) (step : M → ℕ × Field → Eval NegotiationError M)
    (default : M) (buf : Bytes) : Eval NegotiationError M := do
  let found ← fieldsOf checks buf
  foldFields step default found

-- `x as u32` and `x as u64`
def asU32 (x : ℕ) : UInt32 := UInt32.ofNat x

def asU64 (x : ℕ) : UInt64 := UInt64.ofNat x

def GeneralInfo.field (g : GeneralInfo) : ℕ × Field → Eval NegotiationError GeneralInfo
  | (1, .varint x) => .ok { g with ntpTime := asU64 x }
  | (2, .len b) => .ok { g with cname := fromUtf8Lossy b }
  | (3, .varint x) => .ok { g with abSwitches := asU32 x }
  | (4, .varint x) => .ok { g with screenRes := asU32 x }
  | (5, .varint x) => .ok { g with fecHeaderVersion := asU32 x }
  | (6, .varint x) => .ok { g with rtxVersion := asU32 x }
  | _ => .ok g

def BandwidthSettings.field (s : BandwidthSettings) :
    ℕ × Field → Eval NegotiationError BandwidthSettings
  | (1, .varint x) => .ok { s with cap2g := asU32 x }
  | (2, .varint x) => .ok { s with cap3g := asU32 x }
  | (3, .varint x) => .ok { s with capLte := asU32 x }
  | (4, .varint x) => .ok { s with cap5g := asU32 x }
  | (5, .varint x) => .ok { s with capWifi := asU32 x }
  | _ => .ok s

def CodecFeatures.field (c : CodecFeatures) : ℕ × Field → Eval NegotiationError CodecFeatures
  | (1, .varint x) => .ok { c with audioFeatures := asU32 x }
  | (2, .len b) => .ok { c with videoFeatures := b }
  | _ => .ok c

def StreamGroupPayload.field (p : StreamGroupPayload) :
    ℕ × Field → Eval NegotiationError StreamGroupPayload
  | (1, .varint x) => .ok { p with codecType := asU32 x }
  | (2, .varint x) => .ok { p with rtpPayload := asU32 x }
  | (3, .varint x) => .ok { p with pTime := asU32 x }
  | (4, .varint x) => .ok { p with rtcpFlags := asU32 x }
  | (5, .varint x) => .ok { p with mediaFlags := asU32 x }
  | (6, .varint x) => .ok { p with profileLevelId := asU32 x }
  | (7, .varint x) => .ok { p with rtpSampleRate := asU32 x }
  | (8, .varint x) => .ok { p with cipherSuite := asU32 x }
  | (9, .len b) => .ok { p with packedPayload := b }
  | (10, .varint x) => .ok { p with encoderUsage := asU32 x }
  | _ => .ok p

def StreamGroupStream.field (s : StreamGroupStream) :
    ℕ × Field → Eval NegotiationError StreamGroupStream
  | (1, .varint x) => .ok { s with metadata := asU32 x }
  | (2, .varint x) => .ok { s with payloadSpecOrPayloads := asU32 x }
  | (3, .varint x) => .ok { s with qualityIndex := asU32 x }
  | (4, .varint x) => .ok { s with rtpSsrc := asU32 x }
  | (5, .varint x) => .ok { s with streamId := asU32 x }
  | (6, .varint x) => .ok { s with maxNetworkBitrate := asU32 x }
  | (7, .varint x) => .ok { s with repairedMaxNetworkBitrate := asU32 x }
  | (8, .varint x) => .ok { s with audioChannelCount := asU32 x }
  | (9, .varint x) => .ok { s with streamIndex := asU32 x }
  | (10, .len b) => .ok { s with requiredPackedPayload := b }
  | (11, .len b) => .ok { s with optionalPackedPayload := b }
  | (12, .varint x) => .ok { s with coordinateSystem := asU32 x }
  | (13, .varint x) => .ok { s with payloadsVersion := asU32 x }
  | (14, .varint x) => .ok { s with maxNetworkBitrateV2 := asU32 x }
  | (15, .varint x) => .ok { s with repairedMaxNetworkBitrateV2 := asU32 x }
  | _ => .ok s

def EncodeDecodeFeatures.field (f : EncodeDecodeFeatures) :
    ℕ × Field → Eval NegotiationError EncodeDecodeFeatures
  | (1, .varint x) => .ok { f with rtpPayload := asU32 x }
  | (2, .len b) => .ok { f with encodeDecodeFeatures := b }
  | _ => .ok f

variable (checks : Bool)

def GeneralInfo.decode := decodeWith checks GeneralInfo.field {}

def BandwidthSettings.decode := decodeWith checks BandwidthSettings.field {}

def CodecFeatures.decode := decodeWith checks CodecFeatures.field {}

def StreamGroupPayload.decode := decodeWith checks StreamGroupPayload.field {}

def StreamGroupStream.decode := decodeWith checks StreamGroupStream.field {}

def EncodeDecodeFeatures.decode := decodeWith checks EncodeDecodeFeatures.field {}

def SettingsU1.field (s : SettingsU1) : ℕ × Field → Eval NegotiationError SettingsU1
  | (1, .varint x) => .ok { s with rtpSsrc := asU32 x }
  | (2, .len b) => do
    let f ← EncodeDecodeFeatures.decode checks b
    .ok { s with encodeDecodeFeatures := s.encodeDecodeFeatures ++ [f] }
  | _ => .ok s

def SettingsU1.decode := decodeWith checks (SettingsU1.field checks) {}

def StreamGroup.field (g : StreamGroup) : ℕ × Field → Eval NegotiationError StreamGroup
  | (1, .varint x) => .ok { g with streamGroup := asU32 x }
  | (2, .len b) => do
    let p ← StreamGroupPayload.decode checks b
    .ok { g with payloads := g.payloads ++ [p] }
  | (3, .len b) => do
    let s ← StreamGroupStream.decode checks b
    .ok { g with streams := g.streams ++ [s] }
  | (4, .len b) => do
    let s ← SettingsU1.decode checks b
    .ok { g with settingsU1 := some s }
  | _ => .ok g

def StreamGroup.decode := decodeWith checks (StreamGroup.field checks) {}

def MediaNegotiationBlob.field (out : MediaNegotiationBlob) :
    ℕ × Field → Eval NegotiationError MediaNegotiationBlob
  | (1, .len b) => do
    let g ← GeneralInfo.decode checks b
    .ok { out with generalInfo := some g }
  | (2, .len b) => do
    let s ← BandwidthSettings.decode checks b
    .ok { out with bandwidthSettings := some s }
  | (3, .len b) => do
    let c ← CodecFeatures.decode checks b
    .ok { out with codecFeatures := some c }
  | (7, .len b) => do
    let g ← StreamGroup.decode checks b
    .ok { out with streamGroups := out.streamGroups ++ [g] }
  | _ => .ok out

def MediaNegotiationBlob.decode := decodeWith checks (MediaNegotiationBlob.field checks) {}

end Decoding

section Offer

inductive CompressError where
  | write (text : String)
  | finish (text : String)

/-- The compression, which is not part of this code. -/
structure Zlib where
  compress : Bytes → Except CompressError Bytes
  decompress : Bytes → Except String Bytes

variable (zlib : Zlib)

def MediaNegotiationBlob.toNegotiatorOffer (b : MediaNegotiationBlob) :
    Eval NegotiationError Bytes :=
  match zlib.compress b.encode with
  | .ok data => .ok data
  | .error (.write text) => .err (.negotiation ("zlib compress: " ++ text))
  | .error (.finish text) => .err (.negotiation ("zlib finish: " ++ text))

def MediaNegotiationBlob.fromNegotiatorOffer (checks : Bool) (data : Bytes) :
    Eval NegotiationError MediaNegotiationBlob :=
  match zlib.decompress data with
  | .ok raw => MediaNegotiationBlob.decode checks raw
  | .error text => .err (.negotiation ("zlib decompress: " ++ text))

end Offer

end XitForge.CoreDevice.Negotiation
