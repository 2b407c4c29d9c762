import Mathlib.Data.List.Induction
import Mathlib.Data.Nat.Bitwise
import Mathlib.Data.Set.Insert
import XitForge.Program

/-!
The virtual keyboard of the HID service. The host keeps a bitmap of the pressed
keys and sends it as a whole in every report; the device knows the reports and
resets that reached it. Every wire step can fail, and a step that fails
delivers nothing.
-/
namespace XitForge.CoreDevice.Keyboard

open Program

/-- A usage of the keyboard page that `KeyboardUsage::new` accepts. -/
@[ext] structure KeyboardUsage where
  raw : ℕ
  valid : 0x01 ≤ raw ∧ raw ≤ 0xE7
  deriving DecidableEq

inductive MainKeyboardError where
  | transport
  | malformedResponse
  | inactive
  | invalidUsage
  | keyAlreadyPressed
  | keyNotPressed
  | stillRegistered
  deriving DecidableEq, Repr

def KeyboardUsage.new (raw : ℕ) : Except MainKeyboardError KeyboardUsage :=
  if h : 0x01 ≤ raw ∧ raw ≤ 0xE7 then .ok ⟨raw, h⟩ else .error .invalidUsage

/-- `[u8; MAIN_KEYBOARD_USAGE_BITMAP_BYTES]`. -/
abbrev Bitmap := Vector UInt8 29

theorem KeyboardUsage.byte_lt (usage : KeyboardUsage) : usage.raw / 8 < 29 := by
  have h := usage.valid
  omega

def KeyboardUsage.bitmapPosition (usage : KeyboardUsage) : Fin 29 × UInt8 :=
  (⟨usage.raw / 8, usage.byte_lt⟩, 1 <<< UInt8.ofNat (usage.raw % 8))

def Bitmap.none : Bitmap := Vector.replicate 29 0

def Bitmap.press (bitmap : Bitmap) (usage : KeyboardUsage) : Bitmap :=
  let position := usage.bitmapPosition
  bitmap.set position.1 (bitmap[position.1] ||| position.2)

def Bitmap.release (bitmap : Bitmap) (usage : KeyboardUsage) : Bitmap :=
  let position := usage.bitmapPosition
  bitmap.set position.1 (bitmap[position.1] &&& ~~~position.2)

/-- The test of a key. -/
def Bitmap.isPressed (bitmap : Bitmap) (usage : KeyboardUsage) : Bool :=
  let position := usage.bitmapPosition
  bitmap[position.1] &&& position.2 != 0

def mainKeyboardUsageBitmap (usages : List KeyboardUsage) : Bitmap :=
  usages.foldl Bitmap.press Bitmap.none

/-- The low six bytes of the timestamp, least significant byte first. -/
def timestampBytes (timestamp : UInt64) : List UInt8 :=
  (List.range 6).map fun i => (timestamp >>> UInt64.ofNat (8 * i)).toUInt8

def buildMainKeyboardReport (timestamp : UInt64) (bitmap : Bitmap) : List UInt8 :=
  0x01 :: (bitmap.toList ++ 0 :: (timestampBytes timestamp ++ [0, 0]))

structure MainKeyboardService where
  serviceId : UInt64
  pressed : Bitmap
  active : Bool

/-- The service that `create_main_keyboard_on_wire` returns. -/
def MainKeyboardService.created (serviceId : UInt64) : MainKeyboardService :=
  ⟨serviceId, Bitmap.none, true⟩

structure HidSurface where
  serviceId : UInt64
  product : Option String
  primaryUsage : Option UInt64
  primaryUsagePage : Option UInt64

/-- A response to a request for the connected services. -/
inductive Response where
  /-- No dictionary, or one without `connectedServices`. -/
  | missing
  /-- `plist::from_value` fails. -/
  | malformed
  | surfaces (surfaces : List HidSurface)

/-- `char::is_control`. -/
def isControl (c : Char) : Bool := c.val < 0x20 || (0x7F ≤ c.val && c.val ≤ 0x9F)

/-- The checks of one surface but for its identifier. -/
def HidSurface.wellFormed (surface : HidSurface) : Bool :=
  surface.product.all (fun product =>
    product != "" && product.utf8ByteSize ≤ 256 && !product.toList.any isControl) &&
  surface.primaryUsage.all (fun usage => usage ≤ 0xFFFF) &&
  surface.primaryUsagePage.all (fun page => page ≤ 0xFFFF)

def parseHidSurfaces : Response → Option (List HidSurface)
  | .surfaces surfaces =>
    if surfaces.length ≤ 256 ∧ (∀ surface ∈ surfaces, surface.serviceId ≠ 0) ∧
        (surfaces.map HidSurface.serviceId).Nodup ∧
        ∀ surface ∈ surfaces, surface.wellFormed = true then
      some surfaces
    else none
  | _ => none

inductive Request where
  | connectedServices
  | send (report : List UInt8) (serviceId : UInt64)
  | resetGestureState (serviceId : UInt64)
  | removeService (serviceId : UInt64)
  deriving DecidableEq

/-- What becomes of one wire step. -/
structure Attempt where
  /-- `send_object` succeeds. -/
  delivered : Bool
  /-- What `recv` returns. -/
  response : Option Response
  /-- `default_timestamp()`. -/
  timestamp : UInt64

/-- What the two sides know of each other. -/
inductive Event where
  | delivered (request : Request)
  | listed (surfaces : List HidSurface)

structure Session where
  service : MainKeyboardService
  /-- The number of wire steps so far. -/
  steps : ℕ
  /-- The requests that were sent, delivered or not. -/
  sent : List Request
  log : List Event

def Session.created (serviceId : UInt64) : Session :=
  ⟨.created serviceId, 0, [], []⟩

/-- A step that sends a request which gets lost. -/
def Session.lose (s : Session) (request : Request) : Session :=
  { s with steps := s.steps + 1, sent := s.sent ++ [request] }

def Session.note (s : Session) (event : Event) : Session :=
  { s with log := s.log ++ [event] }

abbrev Call := Prog Session MainKeyboardError Unit

variable (pattern : ℕ → Attempt)

/-- `MainKeyboardWire::send`. -/
def send (request : Request) : Call := fun s =>
  if (pattern s.steps).delivered then (.done (), (s.lose request).note (.delivered request))
  else (.failed .transport, s.lose request)

/-- `list_hid_surfaces_on_wire`. -/
def listHidSurfacesOnWire : Prog Session MainKeyboardError (List HidSurface) := fun s =>
  let attempt := pattern s.steps
  let asked := (s.lose .connectedServices).note (.delivered .connectedServices)
  if attempt.delivered then
    match attempt.response with
    | none => (.failed .transport, asked)
    | some response =>
      match parseHidSurfaces response with
      | none => (.failed .malformedResponse, asked)
      | some surfaces => (.done surfaces, asked.note (.listed surfaces))
  else (.failed .transport, s.lose .connectedServices)

def setService (change : MainKeyboardService → MainKeyboardService) : Call :=
  Prog.modify fun s => { s with service := change s.service }

def replaceMainKeyboardUsagesOnWire (pressed : Bitmap) : Call := do
  let s ← Prog.get
  if !s.service.active then Prog.fail .inactive
  else
    send pattern (.send (buildMainKeyboardReport (pattern s.steps).timestamp pressed)
      s.service.serviceId)
    setService fun service => { service with pressed := pressed }

def resetMainKeyboardOnWire : Call := do
  let s ← Prog.get
  if !s.service.active then pure ()
  else
    send pattern (.resetGestureState s.service.serviceId)
    setService fun service => { service with pressed := Bitmap.none }

def removeMainKeyboardOnWire : Call := do
  let s ← Prog.get
  if !s.service.active then pure ()
  else
    -- the result of the reset is not looked at
    let _ ← Prog.attempt (send pattern (.resetGestureState s.service.serviceId))
    send pattern (.removeService s.service.serviceId)
    let surfaces ← listHidSurfacesOnWire pattern
    if surfaces.any fun surface => surface.serviceId == s.service.serviceId then
      Prog.fail .stillRegistered
    else
      setService fun service => { service with pressed := Bitmap.none, active := false }

def mainKeyboardKeyDown (usage : KeyboardUsage) : Call := do
  let s ← Prog.get
  if s.service.pressed.isPressed usage then Prog.fail .keyAlreadyPressed
  else replaceMainKeyboardUsagesOnWire pattern (s.service.pressed.press usage)

def mainKeyboardKeyUp (usage : KeyboardUsage) : Call := do
  let s ← Prog.get
  if !s.service.pressed.isPressed usage then Prog.fail .keyNotPressed
  else replaceMainKeyboardUsagesOnWire pattern (s.service.pressed.release usage)

inductive Operation where
  | setUsages (usages : List KeyboardUsage)
  | keyDown (usage : KeyboardUsage)
  | keyUp (usage : KeyboardUsage)
  | reset
  | remove

def Operation.perform : Operation → Call
  | setUsages usages => replaceMainKeyboardUsagesOnWire pattern (mainKeyboardUsageBitmap usages)
  | keyDown usage => mainKeyboardKeyDown pattern usage
  | keyUp usage => mainKeyboardKeyUp pattern usage
  | reset => resetMainKeyboardOnWire pattern
  | remove => removeMainKeyboardOnWire pattern

/-- Operations one after the other, whatever each of them returns. -/
def run (operations : List Operation) (s : Session) : Session :=
  operations.foldl (fun s operation => (operation.perform pattern s).2) s

section Bits

theorem mask_testBit {k : ℕ} (hk : k < 8) (j : ℕ) :
    ((1 : UInt8) <<< UInt8.ofNat k).toNat.testBit j = decide (k = j) := by
  have hmask : ((1 : UInt8) <<< UInt8.ofNat k).toNat = 2 ^ k := by
    revert k
    decide
  rw [hmask, Nat.testBit_two_pow]

theorem mask_not_testBit (k j : Fin 8) :
    (~~~((1 : UInt8) <<< UInt8.ofNat k)).toNat.testBit j = decide (k ≠ j) := by
  revert k j
  decide

/-- The test of a key reads one bit. -/
theorem Bitmap.isPressed_iff (bitmap : Bitmap) (usage : KeyboardUsage) :
    bitmap.isPressed usage = true ↔
      (bitmap[usage.bitmapPosition.1]).toNat.testBit (usage.raw % 8) = true := by
  have hmask := mask_testBit (Nat.mod_lt usage.raw (by decide : 0 < 8))
  unfold Bitmap.isPressed
  simp only [bne_iff_ne, ne_eq, ← UInt8.toNat_inj, UInt8.toNat_and, UInt8.toNat_zero]
  constructor
  · intro hne
    by_contra hbit
    apply hne
    apply Nat.eq_of_testBit_eq
    intro j
    have hj := hmask j
    simp only [Nat.testBit_and, Nat.zero_testBit, Bool.and_eq_false_iff]
    by_cases heq : usage.raw % 8 = j
    · subst heq
      exact Or.inl (by simpa using hbit)
    · refine Or.inr ?_
      unfold KeyboardUsage.bitmapPosition
      rw [hj, decide_eq_false heq]
  · intro hbit hzero
    have hand := congrArg (fun n => n.testBit (usage.raw % 8)) hzero
    unfold KeyboardUsage.bitmapPosition at hand hbit
    simp only [Nat.testBit_and, Nat.zero_testBit, hmask, decide_true, Bool.and_true] at hand
    exact absurd (hand.symm.trans hbit) (by decide)

/-- The place of a bit in the bitmap tells its usage. -/
theorem KeyboardUsage.eq_of_position {usage other : KeyboardUsage}
    (hbyte : usage.bitmapPosition.1 = other.bitmapPosition.1)
    (hbit : usage.raw % 8 = other.raw % 8) : usage = other := by
  have hdiv : usage.raw / 8 = other.raw / 8 := congrArg Fin.val hbyte
  apply KeyboardUsage.ext
  omega

theorem Bitmap.isPressed_set {bitmap : Bitmap} {usage other : KeyboardUsage} {byte : UInt8} :
    (Bitmap.isPressed (bitmap.set usage.bitmapPosition.1 byte) other = true) ↔
      if usage.bitmapPosition.1 = other.bitmapPosition.1 then
        byte.toNat.testBit (other.raw % 8) = true
      else bitmap.isPressed other = true := by
  rw [Bitmap.isPressed_iff, Bitmap.isPressed_iff]
  split
  case isTrue h => simp [← h]
  case isFalse h =>
    have hne : (usage.bitmapPosition.1 : ℕ) ≠ other.bitmapPosition.1 := fun heq => h (Fin.ext heq)
    simp only [Fin.getElem_fin]
    rw [Vector.getElem_set_ne _ _ hne]

@[simp] theorem Bitmap.isPressed_press (bitmap : Bitmap) (usage other : KeyboardUsage) :
    (bitmap.press usage).isPressed other = true ↔ other = usage ∨ bitmap.isPressed other = true := by
  have hmask := mask_testBit (Nat.mod_lt usage.raw (by decide : 0 < 8)) (other.raw % 8)
  unfold Bitmap.press
  rw [Bitmap.isPressed_set]
  split
  case isTrue h =>
    rw [Bitmap.isPressed_iff, UInt8.toNat_or, Nat.testBit_or, Bool.or_eq_true]
    have hbit : usage.bitmapPosition.2.toNat.testBit (other.raw % 8) = true ↔ other = usage := by
      unfold KeyboardUsage.bitmapPosition
      rw [hmask, decide_eq_true_eq]
      constructor
      · intro hmod
        exact (KeyboardUsage.eq_of_position h hmod).symm
      · intro heq
        rw [heq]
    rw [hbit]
    simp only [h]
    exact or_comm
  case isFalse h =>
    have hne : other ≠ usage := fun heq => h (by rw [heq])
    simp [hne]

@[simp] theorem Bitmap.isPressed_release (bitmap : Bitmap) (usage other : KeyboardUsage) :
    (bitmap.release usage).isPressed other = true ↔
      other ≠ usage ∧ bitmap.isPressed other = true := by
  have hmask := mask_not_testBit ⟨usage.raw % 8, Nat.mod_lt _ (by decide)⟩
    ⟨other.raw % 8, Nat.mod_lt _ (by decide)⟩
  unfold Bitmap.release
  rw [Bitmap.isPressed_set]
  split
  case isTrue h =>
    have hbit : (~~~usage.bitmapPosition.2).toNat.testBit (other.raw % 8) = true ↔
        other ≠ usage := by
      unfold KeyboardUsage.bitmapPosition
      rw [hmask, decide_eq_true_eq, ne_eq, ne_eq, Fin.mk.injEq]
      apply not_congr
      constructor
      · intro hmod
        exact (KeyboardUsage.eq_of_position h hmod).symm
      · intro heq
        rw [heq]
    rw [Bitmap.isPressed_iff, UInt8.toNat_and, Nat.testBit_and, Bool.and_eq_true, hbit]
    simp only [h]
    exact and_comm
  case isFalse h =>
    have hne : other ≠ usage := fun heq => h (by rw [heq])
    simp [hne]

@[simp] theorem Bitmap.isPressed_none (usage : KeyboardUsage) :
    Bitmap.none.isPressed usage = false := by
  rw [Bool.eq_false_iff, ne_eq, Bitmap.isPressed_iff]
  simp [Bitmap.none]

theorem isPressed_mainKeyboardUsageBitmap (usages : List KeyboardUsage) (usage : KeyboardUsage) :
    (mainKeyboardUsageBitmap usages).isPressed usage = true ↔ usage ∈ usages := by
  have hfold (bitmap : Bitmap) : (usages.foldl Bitmap.press bitmap).isPressed usage = true ↔
      usage ∈ usages ∨ bitmap.isPressed usage = true := by
    induction usages generalizing bitmap with
    | nil => simp
    | cons first rest ih =>
      rw [List.foldl_cons, ih, Bitmap.isPressed_press, List.mem_cons]
      tauto
  rw [mainKeyboardUsageBitmap, hfold, Bitmap.isPressed_none]
  simp

end Bits

section Device

/-- The keys of a report, as the report descriptor lays them out. -/
def reportedKeys (report : List UInt8) : Bitmap :=
  Vector.ofFn fun i => report.getD (i + 1) 0

theorem reportedKeys_build (timestamp : UInt64) (bitmap : Bitmap) :
    reportedKeys (buildMainKeyboardReport timestamp bitmap) = bitmap := by
  apply Vector.ext
  intro i hi
  have hlength : i < bitmap.toList.length := by
    rw [Vector.length_toList]
    exact hi
  unfold reportedKeys buildMainKeyboardReport
  rw [Vector.getElem_ofFn, List.getD_cons_succ, List.getD_append _ _ _ _ hlength,
    List.getD_eq_getElem _ _ hlength, Vector.getElem_toList]

/-- The key set that the reports and resets delivered so far imply. -/
def impliedKeys (log : List Event) : Bitmap :=
  log.foldl (fun keys event =>
    match event with
    | .delivered (.send report _) => reportedKeys report
    | .delivered (.resetGestureState _) => Bitmap.none
    | _ => keys) Bitmap.none

/-- The same, and a service that the device does not list any more holds no keys. -/
def deviceKeys (serviceId : UInt64) (log : List Event) : Bitmap :=
  log.foldl (fun keys event =>
    match event with
    | .delivered (.send report _) => reportedKeys report
    | .delivered (.resetGestureState _) => Bitmap.none
    | .listed surfaces =>
      if surfaces.any fun surface => surface.serviceId == serviceId then keys else Bitmap.none
    | _ => keys) Bitmap.none

def Session.keys (s : Session) : Bitmap := deviceKeys s.service.serviceId s.log

variable (s : Session) (request : Request) (event : Event)

@[simp] theorem Session.service_lose : (s.lose request).service = s.service := rfl

@[simp] theorem Session.service_note : (s.note event).service = s.service := rfl

@[simp] theorem Session.keys_lose : (s.lose request).keys = s.keys := rfl

@[simp] theorem Session.keys_report (timestamp : UInt64) (bitmap : Bitmap) (serviceId : UInt64) :
    (s.note (.delivered (.send (buildMainKeyboardReport timestamp bitmap) serviceId))).keys =
      bitmap := by
  unfold Session.keys deviceKeys Session.note
  rw [List.foldl_append]
  exact reportedKeys_build timestamp bitmap

@[simp] theorem Session.keys_reset (serviceId : UInt64) :
    (s.note (.delivered (.resetGestureState serviceId))).keys = Bitmap.none := by
  unfold Session.keys deviceKeys Session.note
  rw [List.foldl_append]
  rfl

@[simp] theorem Session.keys_remove (serviceId : UInt64) :
    (s.note (.delivered (.removeService serviceId))).keys = s.keys := by
  unfold Session.keys deviceKeys Session.note
  rw [List.foldl_append]
  rfl

@[simp] theorem Session.keys_asked : (s.note (.delivered .connectedServices)).keys = s.keys := by
  unfold Session.keys deviceKeys Session.note
  rw [List.foldl_append]
  rfl

theorem Session.keys_listed (surfaces : List HidSurface) :
    (s.note (.listed surfaces)).keys =
      if surfaces.any fun surface => surface.serviceId == s.service.serviceId then s.keys
      else Bitmap.none := by
  unfold Session.keys deviceKeys Session.note
  rw [List.foldl_append]
  rfl

end Device

section Steps

variable {pattern : ℕ → Attempt} {s : Session}

theorem send_delivered {request : Request} (h : (pattern s.steps).delivered = true) :
    send pattern request s = (.done (), (s.lose request).note (.delivered request)) := if_pos h

theorem send_lost {request : Request} (h : ¬ (pattern s.steps).delivered = true) :
    send pattern request s = (.failed .transport, s.lose request) := if_neg h

variable (pattern s)

/-- A new key set is sent and then remembered, or nothing changes. -/
theorem replace_cases (pressed : Bitmap) :
    (∃ s', replaceMainKeyboardUsagesOnWire pattern pressed s = (.done (), s') ∧
      s.service.active = true ∧ s'.service = { s.service with pressed := pressed } ∧
      s'.keys = pressed) ∨
    ∃ error s', replaceMainKeyboardUsagesOnWire pattern pressed s = (.failed error, s') ∧
      s'.service = s.service ∧ s'.keys = s.keys ∧ (s.service.active = false → s' = s) := by
  unfold replaceMainKeyboardUsagesOnWire
  rw [Prog.bind_done (rfl : Prog.get s = (.done s, s))]
  by_cases hactive : s.service.active = true
  · rw [if_neg (by simp [hactive])]
    by_cases h : (pattern s.steps).delivered = true
    · rw [Prog.bind_done (send_delivered h)]
      refine Or.inl ⟨_, rfl, hactive, rfl, ?_⟩
      exact Session.keys_report (s.lose _) _ pressed s.service.serviceId
    · rw [Prog.bind_failed (send_lost h)]
      exact Or.inr ⟨_, _, rfl, rfl, rfl, fun h => by simp [hactive] at h⟩
  · rw [if_pos (by simp [hactive])]
    exact Or.inr ⟨_, _, rfl, rfl, rfl, fun _ => rfl⟩

theorem reset_cases :
    (s.service.active = false ∧ resetMainKeyboardOnWire pattern s = (.done (), s)) ∨
    (∃ s', resetMainKeyboardOnWire pattern s = (.done (), s') ∧
      s'.service = { s.service with pressed := Bitmap.none } ∧ s'.keys = Bitmap.none) ∨
    ∃ error s', resetMainKeyboardOnWire pattern s = (.failed error, s') ∧
      s'.service = s.service ∧ s'.keys = s.keys := by
  unfold resetMainKeyboardOnWire
  rw [Prog.bind_done (rfl : Prog.get s = (.done s, s))]
  by_cases hactive : s.service.active = true
  · rw [if_neg (by simp [hactive])]
    by_cases h : (pattern s.steps).delivered = true
    · rw [Prog.bind_done (send_delivered h)]
      refine Or.inr (Or.inl ⟨_, rfl, rfl, ?_⟩)
      exact Session.keys_reset (s.lose _) s.service.serviceId
    · rw [Prog.bind_failed (send_lost h)]
      exact Or.inr (Or.inr ⟨_, _, rfl, rfl, rfl⟩)
  · rw [if_pos (by simp [hactive])]
    exact Or.inl ⟨by simpa using hactive, rfl⟩

/-- A request for the surfaces leaves the keys, but for a list without the service. -/
theorem list_cases :
    (∃ surfaces s', listHidSurfacesOnWire pattern s = (.done surfaces, s') ∧
      s'.service = s.service ∧
      s'.keys = if surfaces.any fun surface => surface.serviceId == s.service.serviceId then s.keys
        else Bitmap.none) ∨
    ∃ error s', listHidSurfacesOnWire pattern s = (.failed error, s') ∧
      s'.service = s.service ∧ s'.keys = s.keys := by
  unfold listHidSurfacesOnWire
  dsimp only
  split
  · split
    · exact Or.inr ⟨_, _, rfl, rfl, by simp⟩
    · split
      · exact Or.inr ⟨_, _, rfl, rfl, by simp⟩
      · rename_i surfaces _
        refine Or.inl ⟨surfaces, _, rfl, rfl, ?_⟩
        rw [Session.keys_listed]
        simp
  · exact Or.inr ⟨_, _, rfl, rfl, rfl⟩

/-- A removal that fails leaves the host as it was, but its reset may have reached the
device. -/
theorem remove_cases :
    (s.service.active = false ∧ removeMainKeyboardOnWire pattern s = (.done (), s)) ∨
    (∃ s', removeMainKeyboardOnWire pattern s = (.done (), s') ∧ s.service.active = true ∧
      s'.service = { s.service with pressed := Bitmap.none, active := false } ∧
      s'.keys = Bitmap.none) ∨
    ∃ error s', removeMainKeyboardOnWire pattern s = (.failed error, s') ∧
      s.service.active = true ∧ s'.service = s.service ∧
      s'.keys = if (pattern s.steps).delivered then Bitmap.none else s.keys := by
  unfold removeMainKeyboardOnWire
  rw [Prog.bind_done (rfl : Prog.get s = (.done s, s))]
  by_cases hactive : s.service.active = true
  case neg =>
    rw [if_pos (by simp [hactive])]
    exact Or.inl ⟨by simpa using hactive, rfl⟩
  right
  rw [if_neg (by simp [hactive])]
  have hreset : ∃ result after,
      Prog.attempt (send pattern (.resetGestureState s.service.serviceId)) s = (.done result, after) ∧
      after.service = s.service ∧
      after.keys = if (pattern s.steps).delivered then Bitmap.none else s.keys := by
    unfold Prog.attempt
    by_cases h : (pattern s.steps).delivered = true
    · rw [send_delivered h, if_pos h]
      exact ⟨_, _, rfl, rfl, Session.keys_reset _ _⟩
    · rw [send_lost h, if_neg h]
      exact ⟨_, _, rfl, rfl, rfl⟩
  obtain ⟨result, after, hattempt, hservice, hkeys⟩ := hreset
  rw [Prog.bind_done hattempt, ← hkeys]
  by_cases hsent : (pattern after.steps).delivered = true
  case neg =>
    rw [Prog.bind_failed (send_lost hsent)]
    exact Or.inr ⟨_, _, rfl, hactive, hservice, rfl⟩
  rw [Prog.bind_done (send_delivered hsent)]
  obtain ⟨surfaces, listed, hlist, hlistService, hlistKeys⟩ | ⟨error, listed, hlist, hlistService,
      hlistKeys⟩ := list_cases pattern
    ((after.lose (.removeService s.service.serviceId)).note
      (.delivered (.removeService s.service.serviceId)))
  · rw [Prog.bind_done hlist]
    simp only [Session.service_note, Session.service_lose, Session.keys_remove,
      Session.keys_lose] at hlistService hlistKeys
    rw [hservice] at hlistService hlistKeys
    split
    · rename_i hany
      rw [if_pos hany] at hlistKeys
      exact Or.inr ⟨_, _, rfl, hactive, hlistService, hlistKeys⟩
    · rename_i hany
      rw [if_neg hany] at hlistKeys
      refine Or.inl ⟨_, rfl, hactive, ?_, ?_⟩
      · show { listed.service with pressed := Bitmap.none, active := false } = _
        rw [hlistService]
      · exact hlistKeys
  · rw [Prog.bind_failed hlist]
    simp only [Session.service_note, Session.service_lose, Session.keys_remove,
      Session.keys_lose] at hlistService hlistKeys
    exact Or.inr ⟨_, _, rfl, hactive, hlistService.trans hservice, hlistKeys⟩

variable {pattern s}

/-- A removal that fails although its reset reached the device, while keys are pressed. -/
def Operation.HalfRemoves (pattern : ℕ → Attempt) (operation : Operation) (s : Session) : Prop :=
  operation = .remove ∧ s.service.pressed ≠ Bitmap.none ∧ (pattern s.steps).delivered = true ∧
    (operation.perform pattern s).1 ≠ .done ()

/-- The host's key set is the device's. -/
def Session.Agrees (s : Session) : Prop := s.service.pressed = s.keys

/-- Both sides have the same keys. -/
theorem agrees_set {s' : Session} {pressed : Bitmap} (hservice : s'.service.pressed = pressed)
    (hkeys : s'.keys = pressed) : s'.Agrees := hservice.trans hkeys.symm

/-- Neither side has changed its keys. -/
theorem agrees_kept {s' : Session} (h : s.Agrees) (hservice : s'.service = s.service)
    (hkeys : s'.keys = s.keys) : s'.Agrees := by
  unfold Session.Agrees
  rw [hservice, hkeys]
  exact h

theorem replace_agrees {pressed : Bitmap} (h : s.Agrees) :
    (replaceMainKeyboardUsagesOnWire pattern pressed s).2.Agrees := by
  obtain ⟨s', heq, -, hservice, hkeys⟩ | ⟨error, s', heq, hservice, hkeys, -⟩ :=
    replace_cases pattern s pressed
  · rw [heq]
    exact agrees_set (by rw [hservice]) hkeys
  · rw [heq]
    exact agrees_kept h hservice hkeys

theorem perform_agrees (operation : Operation) (h : s.Agrees)
    (hhalf : ¬ operation.HalfRemoves pattern s) : (operation.perform pattern s).2.Agrees := by
  cases operation with
  | setUsages usages => exact replace_agrees h
  | keyDown usage =>
    show (mainKeyboardKeyDown pattern usage s).2.Agrees
    unfold mainKeyboardKeyDown
    rw [Prog.bind_done (rfl : Prog.get s = (.done s, s))]
    split
    · exact h
    · exact replace_agrees h
  | keyUp usage =>
    show (mainKeyboardKeyUp pattern usage s).2.Agrees
    unfold mainKeyboardKeyUp
    rw [Prog.bind_done (rfl : Prog.get s = (.done s, s))]
    split
    · exact h
    · exact replace_agrees h
  | reset =>
    show (resetMainKeyboardOnWire pattern s).2.Agrees
    obtain ⟨-, heq⟩ | ⟨s', heq, hservice, hkeys⟩ | ⟨error, s', heq, hservice, hkeys⟩ :=
      reset_cases pattern s
    · rw [heq]
      exact h
    · rw [heq]
      exact agrees_set (by rw [hservice]) hkeys
    · rw [heq]
      exact agrees_kept h hservice hkeys
  | remove =>
    show (removeMainKeyboardOnWire pattern s).2.Agrees
    obtain ⟨-, heq⟩ | ⟨s', heq, -, hservice, hkeys⟩ | ⟨error, s', heq, -, hservice, hkeys⟩ :=
      remove_cases pattern s
    · rw [heq]
      exact h
    · rw [heq]
      exact agrees_set (by rw [hservice]) hkeys
    · rw [heq]
      show s'.service.pressed = s'.keys
      rw [hservice, hkeys]
      split
      · -- the reset was delivered, so no key was pressed
        rename_i hdelivered
        by_contra hpressed
        refine hhalf ⟨rfl, hpressed, hdelivered, ?_⟩
        show (removeMainKeyboardOnWire pattern s).1 ≠ .done ()
        rw [heq]
        exact nofun
      · exact h

theorem perform_inactive (operation : Operation) (h : s.service.active = false) :
    (operation.perform pattern s).2 = s := by
  have hreplace (pressed : Bitmap) : (replaceMainKeyboardUsagesOnWire pattern pressed s).2 = s := by
    obtain ⟨s', -, hactive, -, -⟩ | ⟨error, s', heq, -, -, hsame⟩ :=
      replace_cases pattern s pressed
    · rw [h] at hactive
      cases hactive
    · rw [heq]
      exact hsame h
  cases operation with
  | setUsages usages => exact hreplace _
  | keyDown usage =>
    show (mainKeyboardKeyDown pattern usage s).2 = s
    unfold mainKeyboardKeyDown
    rw [Prog.bind_done (rfl : Prog.get s = (.done s, s))]
    split
    · rfl
    · exact hreplace _
  | keyUp usage =>
    show (mainKeyboardKeyUp pattern usage s).2 = s
    unfold mainKeyboardKeyUp
    rw [Prog.bind_done (rfl : Prog.get s = (.done s, s))]
    split
    · rfl
    · exact hreplace _
  | reset =>
    show (resetMainKeyboardOnWire pattern s).2 = s
    unfold resetMainKeyboardOnWire
    rw [Prog.bind_done (rfl : Prog.get s = (.done s, s)), if_pos (by simp [h])]
    rfl
  | remove =>
    show (removeMainKeyboardOnWire pattern s).2 = s
    unfold removeMainKeyboardOnWire
    rw [Prog.bind_done (rfl : Prog.get s = (.done s, s)), if_pos (by simp [h])]
    rfl

end Steps

section Runs

variable {pattern : ℕ → Attempt} {s : Session}

theorem run_append (first second : List Operation) :
    run pattern (first ++ second) s = run pattern second (run pattern first s) :=
  List.foldl_append

theorem run_inactive (operations : List Operation) (h : s.service.active = false) :
    run pattern operations s = s := by
  induction operations with
  | nil => rfl
  | cons operation rest ih =>
    show run pattern rest (operation.perform pattern s).2 = s
    rw [perform_inactive operation h]
    exact ih

/-- No operation of a run is a half removal. -/
def NoHalfRemoval (pattern : ℕ → Attempt) (operations : List Operation) (s : Session) : Prop :=
  ∀ before operation after, operations = before ++ operation :: after →
    ¬ operation.HalfRemoves pattern (run pattern before s)

theorem run_agrees {operations : List Operation} (hhalf : NoHalfRemoval pattern operations s)
    (h : s.Agrees) : (run pattern operations s).Agrees := by
  induction operations using List.reverseRecOn with
  | nil => exact h
  | append_singleton before operation ih =>
    rw [run_append]
    have hbefore : NoHalfRemoval pattern before s := by
      intro first other rest heq
      exact hhalf first other (rest ++ [operation]) (by rw [heq]; simp)
    exact perform_agrees operation (ih hbefore) (hhalf before operation [] rfl)

end Runs

/-- The pressed keys as a set. -/
def Bitmap.keySet (bitmap : Bitmap) : Set KeyboardUsage := {usage | bitmap.isPressed usage = true}

section Keys

variable {pattern : ℕ → Attempt} {s : Session} {usage : KeyboardUsage}

theorem keyDown_done (h : s.Agrees)
    (hdone : ((Operation.keyDown usage).perform pattern s).1 = .done ()) :
    usage ∉ s.keys.keySet ∧
      ((Operation.keyDown usage).perform pattern s).2.keys.keySet = insert usage s.keys.keySet := by
  change (mainKeyboardKeyDown pattern usage s).1 = _ at hdone
  show _ ∧ (mainKeyboardKeyDown pattern usage s).2.keys.keySet = _
  unfold mainKeyboardKeyDown at hdone ⊢
  rw [Prog.bind_done (rfl : Prog.get s = (.done s, s))] at hdone ⊢
  split at hdone
  · cases hdone
  · rename_i hup
    rw [if_neg hup]
    obtain ⟨s', heq, -, -, hkeys⟩ | ⟨error, s', heq, -⟩ :=
      replace_cases pattern s (s.service.pressed.press usage)
    · rw [heq, hkeys, ← h]
      refine ⟨hup, ?_⟩
      ext other
      exact Bitmap.isPressed_press _ _ _
    · rw [heq] at hdone
      cases hdone

theorem keyUp_done (h : s.Agrees)
    (hdone : ((Operation.keyUp usage).perform pattern s).1 = .done ()) :
    usage ∈ s.keys.keySet ∧
      ((Operation.keyUp usage).perform pattern s).2.keys.keySet = s.keys.keySet \ {usage} := by
  change (mainKeyboardKeyUp pattern usage s).1 = _ at hdone
  show _ ∧ (mainKeyboardKeyUp pattern usage s).2.keys.keySet = _
  unfold mainKeyboardKeyUp at hdone ⊢
  rw [Prog.bind_done (rfl : Prog.get s = (.done s, s))] at hdone ⊢
  split at hdone
  · cases hdone
  · rename_i hdown
    rw [if_neg hdown]
    obtain ⟨s', heq, -, -, hkeys⟩ | ⟨error, s', heq, -⟩ :=
      replace_cases pattern s (s.service.pressed.release usage)
    · rw [heq, hkeys, ← h]
      refine ⟨by simpa [Bitmap.keySet] using hdown, ?_⟩
      ext other
      exact (Bitmap.isPressed_release _ _ _).trans and_comm
    · rw [heq] at hdone
      cases hdone

theorem remove_done (hdone : (Operation.remove.perform pattern s).1 = .done ()) :
    (Operation.remove.perform pattern s).2.service.active = false := by
  change (removeMainKeyboardOnWire pattern s).1 = _ at hdone
  show (removeMainKeyboardOnWire pattern s).2.service.active = false
  obtain ⟨hactive, heq⟩ | ⟨s', heq, -, hservice, -⟩ | ⟨error, s', heq, -⟩ :=
    remove_cases pattern s
  · rw [heq]
    exact hactive
  · rw [heq]
    show s'.service.active = false
    rw [hservice]
  · rw [heq] at hdone
    cases hdone

end Keys

/-- Where no removal stops half-way, the host knows the keys of the device after every
operation, and a key that goes down or up changes them. Nothing is sent after a removal
that was confirmed. -/
theorem pressed_follows_device (pattern : ℕ → Attempt) (serviceId : UInt64)
    (operations : List Operation) :
    let s := run pattern operations (.created serviceId)
    (NoHalfRemoval pattern operations (.created serviceId) →
      s.service.pressed = s.keys ∧
      (∀ usage, ((Operation.keyDown usage).perform pattern s).1 = .done () →
        usage ∉ s.keys.keySet ∧
        ((Operation.keyDown usage).perform pattern s).2.keys.keySet = insert usage s.keys.keySet) ∧
      ∀ usage, ((Operation.keyUp usage).perform pattern s).1 = .done () →
        usage ∈ s.keys.keySet ∧
        ((Operation.keyUp usage).perform pattern s).2.keys.keySet = s.keys.keySet \ {usage}) ∧
    ((Operation.remove.perform pattern s).1 = .done () →
      ∀ later, (run pattern later (Operation.remove.perform pattern s).2).sent =
        (Operation.remove.perform pattern s).2.sent) := by
  intro s
  constructor
  · intro hhalf
    have hagrees : s.Agrees := run_agrees hhalf rfl
    exact ⟨hagrees, fun usage => keyDown_done hagrees, fun usage => keyUp_done hagrees⟩
  · intro hdone later
    rw [run_inactive later (remove_done hdone)]

/-- A wire on which the second step alone fails. -/
def secondLost (step : ℕ) : Attempt := ⟨step != 1, some (.surfaces []), 0⟩

/-- A removal that is confirmed although its reset got lost leaves a report as the last
that the device heard of the keys. -/
theorem removed_without_reset :
    ¬ ∀ (pattern : ℕ → Attempt) (serviceId : UInt64) (operations : List Operation),
      (run pattern operations (.created serviceId)).service.pressed =
        impliedKeys (run pattern operations (.created serviceId)).log := by
  intro h
  have hrun := h secondLost 1 [.keyDown ⟨4, by decide⟩, .remove]
  revert hrun
  decide

end XitForge.CoreDevice.Keyboard
