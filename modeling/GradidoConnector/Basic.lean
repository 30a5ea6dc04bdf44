/-!
# Data shared by the modules

* `DateTime`: `Poco::DateTime` and `Poco::Timestamp` as microseconds.
* `Bytes`: a `std::string` or `MemoryBin` that holds binary data. Text is `String`.
* `Json`: what `rapidjson` parses. A double is carried as its literal.
* `Exn`: the exceptions the modelled code throws or tells apart, with the arguments of their
  constructors. A class of a library that the code only passes on has its `what()` alone.
  `crash` is the end of the process (a failed `RAPIDJSON_ASSERT`, a null pointer read): no
  `catch` clause sees it.
* `Document`: what a handler returns. `null` is the empty `Document()`.
* `Params`: the body of a request as the readers `getStringParameter` and `getUInt64Parameter`
  of the request handlers' base class find it. A reader that fails returns an error document and
  leaves the variable as it was.
-/

namespace GradidoConnector

abbrev DateTime := Int

abbrev Bytes := List UInt8

/-- The bytes of a text. -/
def bytesOf (s : String) : Bytes := s.toByteArray.data.toList

theorem bytesOf_inj {a b : String} : bytesOf a = bytesOf b ↔ a = b := by
  refine ⟨fun h => String.toByteArray_inj.mp ?_, fun h => by rw [h]⟩
  exact ByteArray.ext (Array.toList_inj.mp h)

/-- A JSON value. -/
inductive Json
  | null
  | bool (b : Bool)
  | int (n : Int)
  | double (literal : String)
  | str (s : String)
  | arr (elements : List Json)
  | obj (members : List (String × Json))

/-- `model::gradido::TransactionType` -/
inductive TransactionType
  | creation
  | transfer
  | deferredTransfer
  | groupFriendsUpdate
  | registerAddress
  deriving DecidableEq

inductive Exn
  -- thrown by this repository's classes
  | loginException (what username clientIp : String)
  | sessionException (what username : String)
  | jwtTokenException (what jwtToken : String)
  | invalidPasswordException (what username : String) (passwordSize : Nat)
  | rowNotFoundException (what tableName condition : String)
  | passwordEncryptionRateLimitException (what : String)
  | gradidoNodeRPCException (what details : String)
  | apolloDecayException (what startBalance decay : String)
  -- of the gradido_blockchain library
  | decryptionFailedException (what : String)
  | missingKeyException (what keyName : String)
  | ed25519SignException (what : String) (pubkey message : Bytes)
  | ed25519VerifyException (what pubkeyHex signatureHex : String)
  | transactionValidationInvalidSignatureException (what : String)
  | transactionValidationInvalidInputException (what field expected : String)
  | iotaRequestException (what : String)
  | requestResponseErrorException (what : String)
  | rapidjsonParseErrorException (what : String)
  | rapidjsonMissingMemberException (what member type : String)
  | gradidoBlockchainException (what : String)
  -- of Poco and of the standard library
  | signatureVerificationException (what : String)
  | pocoException (what : String)
  | runtimeError (what : String)
  /-- One that is no `std::runtime_error`. -/
  | stdException (what : String)
  | unknown
  | crash (why : String)
  deriving DecidableEq

/-- What an error document says beside its message. -/
inductive Details
  | none
  | text (s : String)
  | exception (e : Exn)
  deriving DecidableEq

inductive Document
  | null
  | success (members : List (String × Json))
  | error (what : String) (details : Details)

namespace Document

/-- `stateSuccess()` -/
def stateSuccess : Document := success []

/-- `stateError(what)` -/
def stateError (what : String) : Document := error what .none

/-- `response.AddMember(name, value)` -/
def addMember (name : String) (value : Json) : Document → Document
  | success members => success (members ++ [(name, value)])
  | d => d

/-- The document reports success. -/
def isSuccess : Document → Bool
  | success _ => true
  | _ => false

/-- The document reports an error. -/
def isError : Document → Bool
  | error _ _ => true
  | _ => false

end Document

/-- The parameters of a request. -/
structure Params where
  getStringParameter : String → Except Document String
  getUInt64Parameter : String → Except Document Nat
  isError_of_string : ∀ name d, getStringParameter name = .error d → d.isError
  isError_of_uint64 : ∀ name d, getUInt64Parameter name = .error d → d.isError

namespace Params

/-- An empty string after `getStringParameter` has read `name` into it. -/
def str (params : Params) (name : String) : String :=
  match params.getStringParameter name with
  | .ok s => s
  | .error _ => ""

/-- A zero after `getUInt64Parameter` has read `name` into it. -/
def uint64 (params : Params) (name : String) : Nat :=
  match params.getUInt64Parameter name with
  | .ok n => n
  | .error _ => 0

/-- A parameter looked up in a list of members. -/
def find {α : Type} (members : List (String × α)) (name : String) : Except Document α :=
  match members.lookup name with
  | some a => .ok a
  | none => .error (.stateError (name ++ " not found"))

theorem isError_of_find {α : Type} {members : List (String × α)} {name : String} {d : Document}
    (h : find members name = .error d) : d.isError := by
  unfold find at h
  cases hl : members.lookup name with
  | some a =>
    rw [hl] at h
    exact absurd h (by simp)
  | none =>
    rw [hl] at h
    cases h
    rfl

/-- The body with these members. -/
def ofMembers (strings : List (String × String)) (numbers : List (String × Nat)) : Params :=
  ⟨find strings, find numbers, fun _ _ h => isError_of_find h, fun _ _ h => isError_of_find h⟩

end Params

end GradidoConnector
