import GradidoConnector.Server

/-!
# Requests to the Gradido Node

Model of `GradidoNodeRPC.cpp`. Each of its five calls sends one JSON-RPC request, reads the answer
and passes every exception through `handleGradidoNodeRpcException`, so each is `rpc` with its own
method, parameters and reader. The texts are those of the source: the reader of the address type
names `getaddressbalance`.

* A `rapidjson` accessor on a value of the wrong type fails its assertion, which is `Exn.crash`.
* `Value(s.data(), alloc)` and `GetString()` are C strings: both end at the first zero character
  (`cString`).

Results:
* `exec_rpc`: a call has one effect, its request, and its result is the reading of the answer.
* `emits_rpc`: the same as a rule for what calls it.
-/

namespace GradidoConnector

open GradidoConnector.Base GradidoConnector.Base.Act

/-! ## `rapidjson` -/

/-- The text up to its first zero character. -/
def cString (s : String) : String := String.ofList (s.toList.takeWhile (· ≠ Char.ofNat 0))

theorem cString_eq_self {s : String} : cString s = s ↔ Char.ofNat 0 ∉ s.toList := by
  rw [cString, ← String.toList_inj, String.toList_ofList, List.takeWhile_eq_self_iff]
  constructor
  · exact fun h hmem => by simpa using h _ hmem
  · rintro h c hc
    refine decide_eq_true fun heq => h ?_
    rwa [heq] at hc

namespace Json

/-- `HasMember(name)` -/
def hasMember (name : String) : Json → Except Exn Bool
  | obj members => .ok (members.any fun m => m.1 == name)
  | _ => .error (.crash "IsObject()")

/-- `operator[](name)` -/
def member (name : String) : Json → Except Exn Json
  | obj members =>
    match members.find? fun m => m.1 == name with
    | some m => .ok m.2
    | none => .error (.crash "member not found")
  | _ => .error (.crash "IsObject()")

/-- `GetString()` -/
def getString : Json → Except Exn String
  | str s => .ok (cString s)
  | _ => .error (.crash "IsString()")

/-- `GetUint64()` -/
def getUint64 : Json → Except Exn Nat
  | int n => if 0 ≤ n ∧ n < 2 ^ 64 then .ok n.toNat else .error (.crash "IsUint64()")
  | _ => .error (.crash "IsUint64()")

/-- `GetArray()` -/
def getArray : Json → Except Exn (List Json)
  | arr elements => .ok elements
  | _ => .error (.crash "IsArray()")

end Json

/-! ## Exception classes -/

/-- The base class under which a handler may catch an exception. -/
inductive BaseClass
  | gradidoBlockchainException
  | pocoException
  | runtimeError
  | stdException
  deriving DecidableEq

namespace Exn

/-- Where the class of an exception belongs, `none` for what only `catch (...)` sees. -/
def baseClass : Exn → Option BaseClass
  | signatureVerificationException .. | pocoException .. => some .pocoException
  | runtimeError .. => some .runtimeError
  | stdException .. => some .stdException
  | unknown | crash .. => none
  | _ => some .gradidoBlockchainException

/-- `getFullString()` -/
def getFullString (lib : Library) : Exn → String
  | gradidoNodeRPCException what details =>
    if details.isEmpty then what else what ++ ", details: " ++ details
  | apolloDecayException what startBalance decay =>
    what ++ ", startBalance: " ++ startBalance ++ ", decay: " ++ decay
  | e => lib.getFullString e

end Exn

namespace GradidoNodeRPC

variable {b : Backend}

/-- `handleGradidoNodeRpcException`: what is thrown for a caught exception. -/
def handleGradidoNodeRpcException (lib : Library) : Exn → Exn
  | .requestResponseErrorException what => .requestResponseErrorException what
  | e =>
    match e.baseClass with
    | some .gradidoBlockchainException =>
      .gradidoNodeRPCException "gradido blockchain exception" (e.getFullString lib)
    | some .pocoException => .gradidoNodeRPCException "Poco exception" (e.getFullString lib)
    | some .runtimeError | some .stdException =>
      .gradidoNodeRPCException "std exception" (e.getFullString lib)
    | none => e

/-- The member `name` of the `result` of an answer. -/
def resultMember (method missing name type : String) (result : Json) : Except Exn Json := do
  if !(← result.hasMember "result") then
    throw (.rapidjsonMissingMemberException ("missing result from " ++ method) "result" "object")
  let inner ← result.member "result"
  if !(← inner.hasMember name) then
    throw (.rapidjsonMissingMemberException ("missing in result from " ++ missing) name type)
  inner.member name

/-- The reading of an answer, with the exceptions of the request and of the reader handled. -/
def reading {α : Type} (lib : Library) (read : Json → Except Exn α) (answer : Except Exn Json) :
    Except Exn α :=
  match answer >>= read with
  | .ok a => .ok a
  | .error e => .error (handleGradidoNodeRpcException lib e)

/-- The common frame of the five calls. -/
def rpc {α : Type} (w : World) (method : String) (params : List (String × Json))
    (read : Json → Except Exn α) : Act (Server b) Exn α :=
  tryCatch (do
    let result ← Server.perform (fun s => w.request s.trace method params) (.request method params)
    answer (read result))
  fun e => throw (handleGradidoNodeRpcException w.lib e)

def readBalance (result : Json) : Except Exn String := do
  (← resultMember "getaddressbalance" "getaddressbalance" "balance" "string" result).getString

def balanceParams (pubkeyHex dateString groupAlias coinGroupId : String) : List (String × Json) :=
  [("coinGroupId", .str (cString coinGroupId)), ("date", .str (cString dateString)),
    ("pubkey", .str (cString pubkeyHex)), ("groupAlias", .str (cString groupAlias))]

def getAddressBalance (w : World) (pubkeyHex dateString groupAlias coinGroupId : String) :
    Act (Server b) Exn String :=
  rpc w "getaddressbalance" (balanceParams pubkeyHex dateString groupAlias coinGroupId) readBalance

def readAddressType (result : Json) : Except Exn String := do
  (← resultMember "getaddresstype" "getaddressbalance" "addressType" "enum as string"
    result).getString

/-- The parameters of `getaddresstype` and `getaddresstxids`. -/
def addressParams (pubkeyHex groupAlias : String) : List (String × Json) :=
  [("pubkey", .str (cString pubkeyHex)), ("groupAlias", .str (cString groupAlias))]

def getAddressType (w : World) (pubkeyHex groupAlias : String) : Act (Server b) Exn String :=
  rpc w "getaddresstype" (addressParams pubkeyHex groupAlias) readAddressType

def readAddressTxids (result : Json) : Except Exn (List Nat) := do
  let transactionNrs ← (← resultMember "getaddresstxids" "getaddresstxids" "transactionNrs"
    "array<uint64>" result).getArray
  transactionNrs.mapM Json.getUint64

def getAddressTxids (w : World) (pubkeyHex groupAlias : String) : Act (Server b) Exn (List Nat) :=
  rpc w "getaddresstxids" (addressParams pubkeyHex groupAlias) readAddressTxids

def readCreationSum (result : Json) : Except Exn String := do
  (← resultMember "getcreationsumformonth" "getcreationsumformonth" "sum" "balance as string"
    result).getString

def creationSumParams (pubkeyHex : String) (month year : Int) (startDateString groupAlias : String) :
    List (String × Json) :=
  [("pubkey", .str (cString pubkeyHex)), ("month", .int month), ("year", .int year),
    ("startSearchDate", .str (cString startDateString)), ("groupAlias", .str (cString groupAlias))]

def getCreationSumForMonth (w : World) (pubkeyHex : String) (month year : Int)
    (startDateString groupAlias : String) : Act (Server b) Exn String :=
  rpc w "getcreationsumformonth" (creationSumParams pubkeyHex month year startDateString groupAlias)
    readCreationSum

/-- An answer to `puttransaction` has a result, and nothing more is read of it. -/
def readPut (result : Json) : Except Exn Unit := do
  if !(← result.hasMember "result") then
    throw (.rapidjsonMissingMemberException "missing result from puttransaction" "result" "object")

def putParams (base64Transaction : String) (transactionNr : Nat) (groupAlias : String) :
    List (String × Json) :=
  [("transaction", .str (cString base64Transaction)), ("transactionNr", .int transactionNr),
    ("groupAlias", .str (cString groupAlias))]

def putTransaction (w : World) (base64Transaction : String) (transactionNr : Nat)
    (groupAlias : String) : Act (Server b) Exn Unit :=
  rpc w "puttransaction" (putParams base64Transaction transactionNr groupAlias) readPut

section Rpc

variable {α : Type} {w : World} {method : String} {params : List (String × Json)}
  {read : Json → Except Exn α} {s : Server b}

/-- **A call has one effect, its request**, and its result is the reading of the answer. -/
theorem exec_rpc :
    exec (rpc w method params read) s =
      (reading w.lib read (w.request s.trace method params),
        s.log (.request method params (w.request s.trace method params))) := by
  simp only [rpc, exec_tryCatch, exec_bind, Server.exec_perform, reading]
  cases w.request s.trace method params with
  | error e => rfl
  | ok result =>
    simp only [exec_answer, bind, Except.bind]
    cases read result <;> rfl

theorem emits_rpc (w : World) (method : String) (params : List (String × Json))
    (read : Json → Except Exn α) (s : Server b) :
    Emits (Server.effects b) (rpc w method params read)
      (fun r out => ∃ a, out = [.request method params a] ∧ r = reading w.lib read a) s := by
  rw [Emits, wp, exec_rpc]
  exact ⟨_, Server.after_log _ s, _, rfl, rfl⟩

end Rpc

end GradidoNodeRPC

end GradidoConnector
