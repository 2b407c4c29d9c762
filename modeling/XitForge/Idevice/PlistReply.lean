import Mathlib.Data.List.Infix
import XitForge.PropertyList

/-!
`read_plist` of an `Idevice`. A reply with an `Error` is no reply to the caller: the name
of the error and the keys beside it become an `IdeviceError`.
-/
namespace XitForge.Idevice

open PropertyList KeyedList

inductive InstallationProxyError where
  | operationFailed (message : String)
  deriving DecidableEq, Repr

/-- The errors of a reply, and of a connection that has none. -/
inductive IdeviceError where
  | socket
  | unexpectedResponse (message : String)
  | getProhibited
  | unknownErrorType (name : String)
  | internalError (detail : String)
  | sessionInactive
  | invalidHostID
  | deviceLocked
  | developerModeNotEnabled
  | unsupportedWatchKey
  | malformedCommand
  | canceledByUser
  | imageNotMounted
  | pairingDialogResponsePending
  | userDeniedPairing
  | passwordProtected
  | applicationVerificationFailed (message : String)
  | installationProxy (error : InstallationProxyError)
  deriving DecidableEq, Repr

/-- `str::contains`. -/
def contains (text needle : String) : Bool := decide (needle.toList <:+: text.toList)

/-- `get(key).and_then(|x| x.as_string())`. -/
def stringAt (dict : Dictionary) (key : String) : Option String :=
  (get dict key).bind Value.asString

def fromDeviceErrorType (e : String) (context : Dictionary) : Option IdeviceError :=
  if contains e "NSDebugDescription=Canceled by user." then some .canceledByUser
  else if contains e "Developer mode is not enabled." then some .developerModeNotEnabled
  else
    match e with
    | "GetProhibited" => some .getProhibited
    | "InvalidHostID" => some .invalidHostID
    | "SessionInactive" => some .sessionInactive
    | "DeviceLocked" => some .deviceLocked
    | "PairingDialogResponsePending" => some .pairingDialogResponsePending
    | "UserDeniedPairing" => some .userDeniedPairing
    | "PasswordProtected" => some .passwordProtected
    | "UnsupportedWatchKey" => some .unsupportedWatchKey
    | "MalformedCommand" => some .malformedCommand
    | "InternalError" =>
      let detailedError := (stringAt context "DetailedError").getD "No context"
      if contains detailedError "There is no matching entry in the device map for" then
        some .imageNotMounted
      else some (.internalError detailedError)
    | "ApplicationVerificationFailed" =>
      some (.applicationVerificationFailed
        ((stringAt context "ErrorDescription").getD "No context"))
    | _ => none

/-- The name of an error, if it is a string or an integer. -/
def errorName (res : Dictionary) : Value → Option String
  | .string e => some e
  | .integer e => some ((stringAt res "ErrorString").getD (toString e))
  | _ => none

/-- What `read_plist` returns for a reply with an `Error`. -/
def errorOf (res : Dictionary) (e : Value) : IdeviceError :=
  match errorName res e with
  | none => .unexpectedResponse "error value is not a string or integer"
  | some e =>
    match fromDeviceErrorType e res with
    | some error => error
    | none =>
      match stringAt res "ErrorDescription" with
      | some desc => .unknownErrorType (e ++ " (" ++ desc ++ ")")
      | none => .unknownErrorType e

/-- What `read_plist` returns for a reply. -/
def readPlist (res : Dictionary) : Except IdeviceError Dictionary :=
  match get res "Error" with
  | some e => .error (errorOf res e)
  | none => .ok res

/-- An error is never taken for a reply, whatever it is. -/
theorem readPlist_of_error {res : Dictionary} {e : Value} (h : get res "Error" = some e) :
    readPlist res = .error (errorOf res e) := by
  unfold readPlist
  rw [h]

theorem readPlist_of_none {res : Dictionary} (h : get res "Error" = none) :
    readPlist res = .ok res := by
  unfold readPlist
  rw [h]

theorem stringAt_remove {dict : Dictionary} {key other : String} (h : other ≠ key) :
    stringAt (remove dict key) other = stringAt dict other := by
  unfold stringAt
  rw [get_remove, if_neg h]

end XitForge.Idevice
