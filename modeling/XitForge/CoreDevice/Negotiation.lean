import XitForge.CoreDevice.NegotiationBlob

/-!
Every message of the negotiation is written as a list of items, and the fields that are
read from these make the same message. An inner message is not longer than the blob.
-/
namespace XitForge.CoreDevice.Negotiation

open ByteStream RustEval RustText Program Protobuf

/-- An item that is left out where the source leaves it out. -/
def given (present : Prop) [Decidable present] (item : Item) : List Item :=
  if present then [item] else []

section Items

variable {items rest : List Item} {e : Encoder}

theorem writeAll_cons (item : Item) : writeAll (item :: rest) e = writeAll rest (item.write e) := by
  rw [writeAll]

@[simp] theorem writeAll_append :
    writeAll (items ++ rest) e = writeAll rest (writeAll items e) := by
  induction items generalizing e with
  | nil => rw [List.nil_append, writeAll]
  | cons item items ih => rw [List.cons_append, writeAll_cons, writeAll_cons, ih]

@[simp] theorem writeAll_given (present : Prop) [Decidable present] (item : Item) :
    writeAll (given present item) e = if present then item.write e else e := by
  unfold given
  split
  · rw [writeAll, writeAll]
  · rw [writeAll]

end Items

section Messages

variable {M S : Type} {checks : Bool} {items : M → List Item} {subitems : S → List Item}

/-- The items of the messages of a repeated field. -/
def messageItems (subitems : S → List Item) (field : FieldNumber) (messages : List S) :
    List Item :=
  messages.map fun message => .message field (subitems message)

/-- What is written of a message is a list of items, and the fields of them lead from the
default to that message. -/
structure RoundTrips (items : M → List Item) (encodeInto : M → Encoder → Encoder)
    (step : M → ℕ × Field → Eval NegotiationError M) (default : M) : Prop where
  writes (m : M) (e : Encoder) : encodeInto m e = writeAll (items m) e
  reads (m : M) (hlen : (encode (items m)).length < 2 ^ 64) :
    foldFields step default ((items m).filterMap Item.visible) = .ok m

theorem foldFields_trans {step : M → ℕ × Field → Eval NegotiationError M} {out next : M}
    {first rest : List (ℕ × Field)} {result : Eval NegotiationError M}
    (hfirst : foldFields step out first = .ok next) (hrest : foldFields step next rest = result) :
    foldFields step out (first ++ rest) = result := by
  induction first generalizing out with
  | nil =>
    cases hfirst
    exact hrest
  | cons field first ih =>
    rw [foldFields] at hfirst
    obtain ⟨out', hout, hfirst⟩ := Eval.bind_eq_ok.mp hfirst
    rw [List.cons_append, foldFields, hout]
    exact ih hfirst

theorem fieldsOf_encode (items : List Item) (hlen : (encode items).length < 2 ^ 64) :
    fieldsOf checks (encode items) = .ok (items.filterMap Item.visible) := by
  have hloop : Decoder.fieldsLoop checks ((encode items).length + 1) ⟨encode items, 0⟩ = _ :=
    Decoder.fieldsLoop_items items [] (Nat.lt_succ_of_le (length_le_encode items)) hlen
  have hfields : Decoder.fields checks (Decoder.new (encode items)) = _ := hloop
  unfold fieldsOf
  rw [hfields]

theorem RoundTrips.decodeWith_encode {encodeInto : M → Encoder → Encoder}
    {step : M → ℕ × Field → Eval NegotiationError M} {default : M}
    (h : RoundTrips items encodeInto step default) (m : M)
    (hlen : (encode (items m)).length < 2 ^ 64) :
    decodeWith checks step default (encode (items m)) = .ok m := by
  unfold decodeWith
  rw [fieldsOf_encode (items m) hlen]
  exact h.reads m hlen

/-- Messages that are written one after another. -/
theorem messageFields_eq {encodeInto : S → Encoder → Encoder}
    (hwrites : ∀ message e, encodeInto message e = writeAll (subitems message) e)
    (field : FieldNumber) (messages : List S) (e : Encoder) :
    messageFields encodeInto field messages e =
      writeAll (messageItems subitems field messages) e := by
  induction messages generalizing e with
  | nil => rw [messageItems, List.map_nil, writeAll, messageFields, List.foldl_nil]
  | cons message messages ih =>
    have hmessage : encodeInto message = writeAll (subitems message) :=
      funext (hwrites message)
    rw [messageItems, List.map_cons, writeAll_cons, Item.write, ← hmessage]
    exact ih _

/-- A step that reads a message at a repeated field puts it behind those it has. -/
theorem foldFields_messages {step : M → ℕ × Field → Eval NegotiationError M}
    {decode : Bytes → Eval NegotiationError S} {withAll : List S → M} (field : FieldNumber)
    (hstep : ∀ done b, step (withAll done) (field, .len b) =
      decode b >>= fun message => .ok (withAll (done ++ [message])))
    {messages : List S} (hread : ∀ message ∈ messages, decode (encode (subitems message)) =
      .ok message) (done : List S) :
    foldFields step (withAll done) ((messageItems subitems field messages).filterMap
      Item.visible) = .ok (withAll (done ++ messages)) := by
  induction messages generalizing done with
  | nil => rw [List.append_nil]; rfl
  | cons message messages ih =>
    have hfirst := hread message List.mem_cons_self
    have hrest := ih (fun message hmem => hread message (List.mem_cons_of_mem _ hmem))
      (done ++ [message])
    rw [List.append_assoc, List.singleton_append] at hrest
    show (step (withAll done) (field, .len (encode (subitems message))) >>= fun out =>
      foldFields step out _) = _
    rw [hstep, hfirst]
    exact hrest

/-- An optional message at a field that is set. -/
theorem foldFields_option {step : M → ℕ × Field → Eval NegotiationError M}
    {decode : Bytes → Eval NegotiationError S} {withOption : Option S → M} (field : FieldNumber)
    (hstep : ∀ b, step (withOption none) (field, .len b) =
      decode b >>= fun message => .ok (withOption (some message)))
    {message : Option S} (hread : ∀ m ∈ message.toList, decode (encode (subitems m)) = .ok m) :
    foldFields step (withOption none) ((messageItems subitems field message.toList).filterMap
      Item.visible) = .ok (withOption message) := by
  cases message with
  | none => rfl
  | some m =>
    have hm := hread m (List.mem_singleton.mpr rfl)
    show (step (withOption none) (field, .len (encode (subitems m))) >>= fun out =>
      foldFields step out []) = _
    rw [hstep, hm]
    rfl

/-- An inner message fits where the outer one does, and is read back. -/
theorem RoundTrips.read_messages {encodeInto : S → Encoder → Encoder}
    {step : S → ℕ × Field → Eval NegotiationError S} {default : S}
    (h : RoundTrips subitems encodeInto step default) (field : FieldNumber) {messages : List S}
    {outer : List Item} (hsub : messageItems subitems field messages ⊆ outer)
    (hlen : (encode outer).length < 2 ^ 64) :
    ∀ message ∈ messages,
      decodeWith checks step default (encode (subitems message)) = .ok message := by
  intro message hmem
  have hitem : Item.message field (subitems message) ∈ outer :=
    hsub (List.mem_map.mpr ⟨message, hmem, rfl⟩)
  exact h.decodeWith_encode message
    (Nat.lt_of_le_of_lt (Within.nested hitem (.self _)).length_le hlen)

end Messages

section Flat

theorem asU32_toNat (v : UInt32) : asU32 v.toNat = v := UInt32.ofNat_toNat

theorem asU64_toNat (v : UInt64) : asU64 v.toNat = v := UInt64.ofNat_toNat

def GeneralInfo.items (g : GeneralInfo) : List Item :=
  [.uint ⟨1, by decide⟩ g.ntpTime] ++ given (g.cname ≠ "") (.bytes ⟨2, by decide⟩ (utf8 g.cname.toList)) ++
    [.uint ⟨3, by decide⟩ g.abSwitches.toUInt64, .uint ⟨4, by decide⟩ g.screenRes.toUInt64,
      .uint ⟨5, by decide⟩ g.fecHeaderVersion.toUInt64,
      .uint ⟨6, by decide⟩ g.rtxVersion.toUInt64]

theorem GeneralInfo.roundTrips : RoundTrips items encodeInto field {} where
  writes g e := by
    simp [encodeInto, items, writeAll, Item.write, stringField, utf8]
  reads g _ := by
    by_cases hcname : g.cname = ""
    · have hg : { g with cname := "" } = g := by rw [← hcname]
      simp [items, given, hcname, Item.visible, foldFields, field, asU32_toNat, asU64_toNat, hg]
    · simp [items, given, hcname, Item.visible, foldFields, field, asU32_toNat, asU64_toNat, utf8,
        fromUtf8Lossy_encode]

def BandwidthSettings.items (s : BandwidthSettings) : List Item :=
  [.uint ⟨1, by decide⟩ s.cap2g.toUInt64, .uint ⟨2, by decide⟩ s.cap3g.toUInt64,
    .uint ⟨3, by decide⟩ s.capLte.toUInt64, .uint ⟨4, by decide⟩ s.cap5g.toUInt64,
    .uint ⟨5, by decide⟩ s.capWifi.toUInt64]

theorem BandwidthSettings.roundTrips : RoundTrips items encodeInto field {} where
  writes s e := by simp [encodeInto, items, writeAll, Item.write]
  reads s _ := by simp [items, Item.visible, foldFields, field, asU32_toNat]

def CodecFeatures.items (c : CodecFeatures) : List Item :=
  [.uint ⟨1, by decide⟩ c.audioFeatures.toUInt64] ++
    given (c.videoFeatures ≠ []) (.bytes ⟨2, by decide⟩ c.videoFeatures)

theorem CodecFeatures.roundTrips : RoundTrips items encodeInto field {} where
  writes c e := by simp [encodeInto, items, writeAll, Item.write]
  reads c _ := by
    by_cases hvideo : c.videoFeatures = []
    · have hc : { c with videoFeatures := [] } = c := by rw [← hvideo]
      simp [items, given, hvideo, Item.visible, foldFields, field, asU32_toNat, hc]
    · simp [items, given, hvideo, Item.visible, foldFields, field, asU32_toNat]

def StreamGroupPayload.items (p : StreamGroupPayload) : List Item :=
  [.uint ⟨1, by decide⟩ p.codecType.toUInt64, .uint ⟨2, by decide⟩ p.rtpPayload.toUInt64,
    .uint ⟨3, by decide⟩ p.pTime.toUInt64, .uint ⟨4, by decide⟩ p.rtcpFlags.toUInt64,
    .uint ⟨5, by decide⟩ p.mediaFlags.toUInt64, .uint ⟨6, by decide⟩ p.profileLevelId.toUInt64,
    .uint ⟨7, by decide⟩ p.rtpSampleRate.toUInt64, .uint ⟨8, by decide⟩ p.cipherSuite.toUInt64] ++
    given (p.packedPayload ≠ []) (.bytes ⟨9, by decide⟩ p.packedPayload) ++
    [.uint ⟨10, by decide⟩ p.encoderUsage.toUInt64]

theorem StreamGroupPayload.roundTrips : RoundTrips items encodeInto field {} where
  writes p e := by simp [encodeInto, items, writeAll, Item.write]
  reads p _ := by
    by_cases hpacked : p.packedPayload = []
    · have hp : { p with packedPayload := [] } = p := by rw [← hpacked]
      simp [items, given, hpacked, Item.visible, foldFields, field, asU32_toNat, hp]
    · simp [items, given, hpacked, Item.visible, foldFields, field, asU32_toNat]

def StreamGroupStream.items (s : StreamGroupStream) : List Item :=
  [.uint ⟨1, by decide⟩ s.metadata.toUInt64,
    .uint ⟨2, by decide⟩ s.payloadSpecOrPayloads.toUInt64,
    .uint ⟨3, by decide⟩ s.qualityIndex.toUInt64, .uint ⟨4, by decide⟩ s.rtpSsrc.toUInt64,
    .uint ⟨5, by decide⟩ s.streamId.toUInt64, .uint ⟨6, by decide⟩ s.maxNetworkBitrate.toUInt64,
    .uint ⟨7, by decide⟩ s.repairedMaxNetworkBitrate.toUInt64,
    .uint ⟨8, by decide⟩ s.audioChannelCount.toUInt64,
    .uint ⟨9, by decide⟩ s.streamIndex.toUInt64] ++
    given (s.requiredPackedPayload ≠ []) (.bytes ⟨10, by decide⟩ s.requiredPackedPayload) ++
    given (s.optionalPackedPayload ≠ []) (.bytes ⟨11, by decide⟩ s.optionalPackedPayload) ++
    [.uint ⟨12, by decide⟩ s.coordinateSystem.toUInt64,
      .uint ⟨13, by decide⟩ s.payloadsVersion.toUInt64,
      .uint ⟨14, by decide⟩ s.maxNetworkBitrateV2.toUInt64,
      .uint ⟨15, by decide⟩ s.repairedMaxNetworkBitrateV2.toUInt64]

theorem StreamGroupStream.roundTrips : RoundTrips items encodeInto field {} where
  writes s e := by simp [encodeInto, items, writeAll, Item.write]
  reads s _ := by
    by_cases hrequired : s.requiredPackedPayload = [] <;>
      by_cases hoptional : s.optionalPackedPayload = []
    · have hs : { s with requiredPackedPayload := [], optionalPackedPayload := [] } = s := by
        cases s
        cases hrequired
        cases hoptional
        rfl
      simp [items, given, hrequired, hoptional, Item.visible, foldFields, field, asU32_toNat, hs]
    · have hs : { s with requiredPackedPayload := [] } = s := by rw [← hrequired]
      simp [items, given, hrequired, hoptional, Item.visible, foldFields, field, asU32_toNat, hs]
    · have hs : { s with optionalPackedPayload := [] } = s := by rw [← hoptional]
      simp [items, given, hrequired, hoptional, Item.visible, foldFields, field, asU32_toNat, hs]
    · simp [items, given, hrequired, hoptional, Item.visible, foldFields, field, asU32_toNat]

def EncodeDecodeFeatures.items (f : EncodeDecodeFeatures) : List Item :=
  [.uint ⟨1, by decide⟩ f.rtpPayload.toUInt64] ++
    given (f.encodeDecodeFeatures ≠ []) (.bytes ⟨2, by decide⟩ f.encodeDecodeFeatures)

theorem EncodeDecodeFeatures.roundTrips : RoundTrips items encodeInto field {} where
  writes f e := by simp [encodeInto, items, writeAll, Item.write]
  reads f _ := by
    by_cases hfeatures : f.encodeDecodeFeatures = []
    · have hf : { f with encodeDecodeFeatures := [] } = f := by rw [← hfeatures]
      simp [items, given, hfeatures, Item.visible, foldFields, field, asU32_toNat, hf]
    · simp [items, given, hfeatures, Item.visible, foldFields, field, asU32_toNat]

end Flat

section Nested

variable (checks : Bool)

def SettingsU1.items (s : SettingsU1) : List Item :=
  [.uint ⟨1, by decide⟩ s.rtpSsrc.toUInt64] ++
    messageItems EncodeDecodeFeatures.items ⟨2, by decide⟩ s.encodeDecodeFeatures

theorem SettingsU1.roundTrips : RoundTrips items encodeInto (field checks) {} where
  writes s e := by
    rw [encodeInto, items, writeAll_append]
    exact messageFields_eq EncodeDecodeFeatures.roundTrips.writes ⟨2, by decide⟩ _ _
  reads s hlen := by
    have hread : ∀ f ∈ s.encodeDecodeFeatures,
        EncodeDecodeFeatures.decode checks (encode f.items) = .ok f :=
      EncodeDecodeFeatures.roundTrips.read_messages ⟨2, by decide⟩ (by simp [items]) hlen
    have hfirst : foldFields (field checks) {}
        ([Item.uint ⟨1, by decide⟩ s.rtpSsrc.toUInt64].filterMap Item.visible) =
          .ok { rtpSsrc := s.rtpSsrc } := by
      simp [Item.visible, foldFields, field, asU32_toNat]
    let withFeatures (done : List EncodeDecodeFeatures) : SettingsU1 := ⟨s.rtpSsrc, done⟩
    have hstep (done : List EncodeDecodeFeatures) (b : Bytes) :
        field checks (withFeatures done) (2, .len b) = EncodeDecodeFeatures.decode checks b >>=
          fun f => .ok (withFeatures (done ++ [f])) := rfl
    rw [items, List.filterMap_append]
    exact foldFields_trans hfirst (foldFields_messages ⟨2, by decide⟩ hstep hread [])

def StreamGroup.items (g : StreamGroup) : List Item :=
  [.uint ⟨1, by decide⟩ g.streamGroup.toUInt64] ++
    messageItems StreamGroupPayload.items ⟨2, by decide⟩ g.payloads ++
    messageItems StreamGroupStream.items ⟨3, by decide⟩ g.streams ++
    messageItems SettingsU1.items ⟨4, by decide⟩ g.settingsU1.toList

theorem StreamGroup.roundTrips : RoundTrips items encodeInto (field checks) {} where
  writes g e := by
    rw [encodeInto, items, writeAll_append, writeAll_append, writeAll_append,
      ← messageFields_eq (SettingsU1.roundTrips checks).writes,
      ← messageFields_eq StreamGroupStream.roundTrips.writes,
      ← messageFields_eq StreamGroupPayload.roundTrips.writes]
    rfl
  reads g hlen := by
    have hpayloads : ∀ p ∈ g.payloads, StreamGroupPayload.decode checks (encode p.items) = .ok p :=
      StreamGroupPayload.roundTrips.read_messages ⟨2, by decide⟩
        (fun item h => by simp [items, h]) hlen
    have hstreams : ∀ s ∈ g.streams, StreamGroupStream.decode checks (encode s.items) = .ok s :=
      StreamGroupStream.roundTrips.read_messages ⟨3, by decide⟩
        (fun item h => by simp [items, h]) hlen
    have hsettings : ∀ s ∈ g.settingsU1.toList, SettingsU1.decode checks (encode s.items) = .ok s :=
      (SettingsU1.roundTrips checks).read_messages ⟨4, by decide⟩
        (fun item h => by simp [items, h]) hlen
    have hfirst : foldFields (field checks) {}
        ([Item.uint ⟨1, by decide⟩ g.streamGroup.toUInt64].filterMap Item.visible) =
          .ok { streamGroup := g.streamGroup } := by
      simp [Item.visible, foldFields, field, asU32_toNat]
    let withPayloads (done : List StreamGroupPayload) : StreamGroup :=
      ⟨g.streamGroup, done, [], none⟩
    let withStreams (done : List StreamGroupStream) : StreamGroup :=
      ⟨g.streamGroup, g.payloads, done, none⟩
    let withSettings (settings : Option SettingsU1) : StreamGroup :=
      ⟨g.streamGroup, g.payloads, g.streams, settings⟩
    have hpayload (done : List StreamGroupPayload) (b : Bytes) :
        field checks (withPayloads done) (2, .len b) = StreamGroupPayload.decode checks b >>=
          fun p => .ok (withPayloads (done ++ [p])) := rfl
    have hstream (done : List StreamGroupStream) (b : Bytes) :
        field checks (withStreams done) (3, .len b) = StreamGroupStream.decode checks b >>=
          fun s => .ok (withStreams (done ++ [s])) := rfl
    have hsetting (b : Bytes) : field checks (withSettings none) (4, .len b) =
        SettingsU1.decode checks b >>= fun s => .ok (withSettings (some s)) := rfl
    rw [items, List.filterMap_append, List.filterMap_append, List.filterMap_append]
    exact foldFields_trans (foldFields_trans (foldFields_trans hfirst
      (foldFields_messages ⟨2, by decide⟩ hpayload hpayloads []))
      (foldFields_messages ⟨3, by decide⟩ hstream hstreams []))
      (foldFields_option ⟨4, by decide⟩ hsetting hsettings)

def MediaNegotiationBlob.items (b : MediaNegotiationBlob) : List Item :=
  messageItems GeneralInfo.items ⟨1, by decide⟩ b.generalInfo.toList ++
    messageItems BandwidthSettings.items ⟨2, by decide⟩ b.bandwidthSettings.toList ++
    messageItems CodecFeatures.items ⟨3, by decide⟩ b.codecFeatures.toList ++
    messageItems StreamGroup.items ⟨7, by decide⟩ b.streamGroups

theorem MediaNegotiationBlob.encode_eq (b : MediaNegotiationBlob) :
    b.encode = Protobuf.encode b.items := by
  have hgroups := messageFields_eq (StreamGroup.roundTrips true).writes ⟨7, by decide⟩
    b.streamGroups
  rw [Protobuf.encode, items, writeAll_append, writeAll_append, writeAll_append, ← hgroups,
    ← messageFields_eq CodecFeatures.roundTrips.writes,
    ← messageFields_eq BandwidthSettings.roundTrips.writes,
    ← messageFields_eq GeneralInfo.roundTrips.writes]
  rfl

theorem MediaNegotiationBlob.reads (b : MediaNegotiationBlob)
    (hlen : (Protobuf.encode b.items).length < 2 ^ 64) :
    foldFields (field checks) {} (b.items.filterMap Item.visible) = .ok b := by
  have hinfo : ∀ g ∈ b.generalInfo.toList,
      GeneralInfo.decode checks (Protobuf.encode g.items) = .ok g :=
    GeneralInfo.roundTrips.read_messages ⟨1, by decide⟩ (fun item h => by simp [items, h]) hlen
  have hbandwidth : ∀ s ∈ b.bandwidthSettings.toList,
      BandwidthSettings.decode checks (Protobuf.encode s.items) = .ok s :=
    BandwidthSettings.roundTrips.read_messages ⟨2, by decide⟩ (fun item h => by simp [items, h])
      hlen
  have hcodec : ∀ c ∈ b.codecFeatures.toList,
      CodecFeatures.decode checks (Protobuf.encode c.items) = .ok c :=
    CodecFeatures.roundTrips.read_messages ⟨3, by decide⟩ (fun item h => by simp [items, h]) hlen
  have hgroups : ∀ g ∈ b.streamGroups,
      StreamGroup.decode checks (Protobuf.encode g.items) = .ok g :=
    (StreamGroup.roundTrips checks).read_messages ⟨7, by decide⟩ (fun item h => by simp [items, h])
      hlen
  let withInfo (info : Option GeneralInfo) : MediaNegotiationBlob := ⟨info, none, none, []⟩
  let withBandwidth (settings : Option BandwidthSettings) : MediaNegotiationBlob :=
    ⟨b.generalInfo, settings, none, []⟩
  let withCodec (features : Option CodecFeatures) : MediaNegotiationBlob :=
    ⟨b.generalInfo, b.bandwidthSettings, features, []⟩
  let withGroups (done : List StreamGroup) : MediaNegotiationBlob :=
    ⟨b.generalInfo, b.bandwidthSettings, b.codecFeatures, done⟩
  have h1 (buf : Bytes) : field checks (withInfo none) (1, .len buf) =
      GeneralInfo.decode checks buf >>= fun g => .ok (withInfo (some g)) := rfl
  have h2 (buf : Bytes) : field checks (withBandwidth none) (2, .len buf) =
      BandwidthSettings.decode checks buf >>= fun s => .ok (withBandwidth (some s)) := rfl
  have h3 (buf : Bytes) : field checks (withCodec none) (3, .len buf) =
      CodecFeatures.decode checks buf >>= fun c => .ok (withCodec (some c)) := rfl
  have h7 (done : List StreamGroup) (buf : Bytes) : field checks (withGroups done) (7, .len buf) =
      StreamGroup.decode checks buf >>= fun g => .ok (withGroups (done ++ [g])) := rfl
  rw [items, List.filterMap_append, List.filterMap_append, List.filterMap_append]
  exact foldFields_trans (foldFields_trans (foldFields_trans
    (foldFields_option ⟨1, by decide⟩ h1 hinfo) (foldFields_option ⟨2, by decide⟩ h2 hbandwidth))
    (foldFields_option ⟨3, by decide⟩ h3 hcodec))
    (foldFields_messages ⟨7, by decide⟩ h7 hgroups [])

end Nested

/-- Reading back what was compressed makes the same bytes; compressing into a buffer in
memory does not fail. -/
def Zlib.Inverts (zlib : Zlib) : Prop :=
  ∀ raw, ∃ data, zlib.compress raw = .ok data ∧ zlib.decompress data = .ok raw

/-- A blob is read back from its bytes, and from its offer. -/
theorem decode_encode_blob (checks : Bool) (b : MediaNegotiationBlob)
    (hlen : b.encode.length < 2 ^ 64) :
    MediaNegotiationBlob.decode checks b.encode = .ok b ∧
      ∀ zlib : Zlib, zlib.Inverts → ∃ data, b.toNegotiatorOffer zlib = .ok data ∧
        MediaNegotiationBlob.fromNegotiatorOffer zlib checks data = .ok b := by
  have hdecode : MediaNegotiationBlob.decode checks b.encode = .ok b := by
    rw [b.encode_eq] at hlen ⊢
    have hitems : RoundTrips (M := MediaNegotiationBlob) MediaNegotiationBlob.items
        (fun b => writeAll b.items) (MediaNegotiationBlob.field checks) {} :=
      ⟨fun _ _ => rfl, fun b => b.reads checks⟩
    exact hitems.decodeWith_encode b hlen
  refine ⟨hdecode, fun zlib hzlib => ?_⟩
  obtain ⟨data, hcompress, hdecompress⟩ := hzlib b.encode
  refine ⟨data, ?_, ?_⟩
  · unfold MediaNegotiationBlob.toNegotiatorOffer
    rw [hcompress]
  · unfold MediaNegotiationBlob.fromNegotiatorOffer
    rw [hdecompress]
    exact hdecode

/-- A blob with codec features that are all zero. -/
def zeroFeatures : MediaNegotiationBlob := { codecFeatures := some {} }

/-- The stream of the bytes of that blob; other bytes stand behind a zero. -/
def oneStream : Zlib where
  compress raw := .ok (if raw = [0x1a, 0x02, 0x08, 0x00] then
    [0x78, 0x9c, 0x93, 0x62, 0xe2, 0x60, 0x00, 0x00, 0x00, 0x82, 0x00, 0x25] else 0 :: raw)
  decompress
    | 0 :: raw => .ok raw
    | data =>
      if data = [0x78, 0x9c, 0x93, 0x62, 0xe2, 0x60, 0x00, 0x00, 0x00, 0x82, 0x00, 0x25] then
        .ok [0x1a, 0x02, 0x08, 0x00]
      else .error "corrupt deflate stream"

theorem oneStream_inverts : oneStream.Inverts := by
  intro raw
  by_cases h : raw = [0x1a, 0x02, 0x08, 0x00]
  · exact ⟨_, congrArg Except.ok (if_pos h), h ▸ rfl⟩
  · exact ⟨0 :: raw, congrArg Except.ok (if_neg h), rfl⟩

theorem decode_encode_zeroFeatures :
    MediaNegotiationBlob.decode true zeroFeatures.encode = .ok zeroFeatures ∧
      ∃ data, zeroFeatures.toNegotiatorOffer oneStream = .ok data ∧
        MediaNegotiationBlob.fromNegotiatorOffer oneStream true data = .ok zeroFeatures := by
  have hencode : zeroFeatures.encode.length = 4 := by
    rw [zeroFeatures.encode_eq]
    simp [zeroFeatures, MediaNegotiationBlob.items, CodecFeatures.items, messageItems, given,
      Protobuf.encode_eq, Item.encoded, Encoder.tag, Leb128.encode, wireLen, wireVarint]
  have hlen : zeroFeatures.encode.length < 2 ^ 64 := by
    rw [hencode]
    decide
  have hall := decode_encode_blob true zeroFeatures hlen
  exact ⟨hall.1, hall.2 oneStream oneStream_inverts⟩

end XitForge.CoreDevice.Negotiation
