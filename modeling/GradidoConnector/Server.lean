import GradidoConnector.Base.Mpfr
import GradidoConnector.PendingTransactions
import GradidoConnector.SessionManager

/-!
# The server and what it talks to

The request handlers run on a `Server`: the session manager with its database, the list of pending
transactions, and the `trace` of everything the request did so far that others can see or that
decides what it does.

* `Library` stands for the pure functions of the `gradido_blockchain` library, of libsodium, of MPFR
  and of Poco that the handlers use.
* `World` answers everything else: the Gradido Node, iota, building, signing and validating a
  transaction, and the clock. An answer may depend on the whole trace before it, so a world is any
  behaviour of the other side at all, with any failure anywhere.
* A transaction is its body, the parent message id and the signatures. `TransactionBody.data` is the
  base transaction; `crossGroup` says whether it is local or one leg of two.
* The database answers every select of a handler; of several rows it delivers the one the world's
  `Driver` chooses.

`Server.log` is the only way a handler changes the trace and the pending transactions, and
`Server.effects` says what a list of effects did to a server.
-/

namespace GradidoConnector

open GradidoConnector.Base GradidoConnector.Base.Act

open PendingTransactions (Sent Store)

/-- `proto::gradido::RegisterAddress_AddressType` -/
inductive AddressType
  | none
  | human
  | project
  | subaccount
  | other (value : Nat)
  deriving DecidableEq

/-- What `TransactionFactory` builds a transaction from. -/
inductive TransactionData
  | creation (recipientPublicKey : Bytes) (amount : String) (targetDate : DateTime)
  | transfer (senderPublicKey : Bytes) (amount coinGroupId : String) (recipientPublicKey : Bytes)
  | registerAddress (userPublicKey : Bytes) (addressType : AddressType)
  deriving DecidableEq

/-- `getTransactionType()` -/
def TransactionData.type : TransactionData → TransactionType
  | creation .. => .creation
  | transfer .. => .transfer
  | registerAddress .. => .registerAddress

/-- `CrossGroupType`, with the other group of a leg. -/
inductive CrossGroup
  | local
  | outbound (otherGroup : String)
  | inbound (otherGroup : String)
  deriving DecidableEq

structure TransactionBody where
  data : TransactionData
  crossGroup : CrossGroup
  memo : String
  created : DateTime
  deriving DecidableEq

structure GradidoTransaction where
  body : TransactionBody
  parentMessageId : Option Bytes
  /-- The public keys with their signatures. -/
  signPairs : List (Bytes × Bytes)
  deriving DecidableEq

/-- An interaction of a request, with its answer. -/
inductive Effect
  | loadGroup (groupAlias : String) (answer : Except Exn (Row Group))
  | loadUser (name : String) (groupId : Nat) (answer : Except Exn (Row User))
  /-- A JSON-RPC request to the Gradido Node. -/
  | request (method : String) (params : List (String × Json)) (answer : Except Exn Json)
  | create (data : TransactionData) (answer : Except Exn Unit)
  /-- A message handed to iota under an index, answered with its id. -/
  | sendMessage (index message : String) (answer : Except Exn String)
  | push (sent : Sent)

/-- What an effect does to the list of pending transactions. -/
def Effect.store : Effect → Store → Store
  | push sent, st => PendingTransactions.pushNewTransaction (.new sent) st
  | _, st => st

structure Library where
  binToHex : Bytes → String
  /-- `none` for a null result. -/
  hexToBin : String → Option Bytes
  binToBase64 : Bytes → String
  /-- `none` for a null result. -/
  base64ToBin : String → Option Bytes
  /-- `crypto_generichash` -/
  genericHash : Bytes → Bytes
  /-- `updateBodyBytes` and `getBodyBytes`. -/
  bodyBytes : TransactionBody → Bytes
  getSerialized : GradidoTransaction → Bytes
  isValidGroupAlias : String → Bool
  getAddressStringFromType : AddressType → String
  getAddressTypeFromString : String → AddressType
  /-- `crypto_sign_ed25519_sk_to_curve25519` -/
  skToCurve25519 : Bytes → Bytes
  /-- `AuthenticatedEncryption` of an ed25519 public key. -/
  pkToCurve25519 : Bytes → Bytes
  /-- `AuthenticatedEncryption::encrypt` with the sender's key to the recipient's. -/
  encrypt : Bytes → Bytes → String → Bytes
  /-- `AuthenticatedEncryption::decrypt` with the recipient's key from the sender's, `none` for a
  null result. -/
  decrypt : Bytes → Bytes → Bytes → Option String
  /-- `mpfr_set_str` in base 10, `none` when it returns an error. -/
  mpfrSetStr : String → Option Mpfr
  /-- A balance at the first date, decayed to the second: `calculateDecayFactorForDuration` and
  `calculateDecayFast`. -/
  calculateDecay : Mpfr → DateTime → DateTime → Except Exn Mpfr
  amountToString : Mpfr → String
  /-- `Poco::DateTimeParser::parse`: the fields as written and the time zone differential, or the
  `what()` of its exception. -/
  parse : String → Except String (DateTime × Int)
  /-- `Poco::DateTimeFormatter::format` with `ISO8601_FRAC_FORMAT`. -/
  format : DateTime → String
  month : DateTime → Int
  year : DateTime → Int
  /-- `getFullString()`, `displayText()` or `what()` of an exception of a library. -/
  getFullString : Exn → String

structure World where
  lib : Library
  cfg : Config
  /-- `Poco::DateTime()` -/
  clock : List Effect → DateTime
  /-- `Poco::Timezone::tzd()` in seconds. -/
  tzd : Int
  /-- What a select with several rows delivers. -/
  several : List Effect → Driver
  /-- `JsonRPCRequest::request` at the Gradido Node. -/
  request : List Effect → String → List (String × Json) → Except Exn Json
  /-- `g_IotaRequestHandler->sendMessage` -/
  sendMessage : List Effect → String → String → Except Exn String
  /-- `TransactionFactory` -/
  create : List Effect → TransactionData → Except Exn Unit
  /-- `CrossGroupTransactionBuilder` -/
  createLeg : List Effect → TransactionData → CrossGroup → Except Exn Unit
  /-- `KeyPairEd25519::sign` -/
  sign : List Effect → KeyPair → Bytes → Except Exn Bytes
  /-- `validate(TRANSACTION_VALIDATION_SINGLE)` -/
  validate : List Effect → GradidoTransaction → Except Exn Unit

/-- A request with what its handler got from the connection. -/
structure Request where
  params : Params
  jwtToken : String
  clientIp : String

structure Server (b : Backend) where
  sessions : SessionManager b
  pending : Store
  trace : List Effect

variable {b : Backend}

namespace Server

/-- The server after an effect. -/
def log (e : Effect) (s : Server b) : Server b :=
  { s with pending := e.store s.pending, trace := s.trace ++ [e] }

/-- `t` is `s` after the effects `out`: the trace and the pending transactions have grown by them,
and the tables are the same. -/
structure After (s : Server b) (out : List Effect) (t : Server b) : Prop where
  trace : t.trace = s.trace ++ out
  pending : t.pending = out.foldl (fun st e => e.store st) s.pending
  db : t.sessions.db = s.sessions.db

def effects (b : Backend) : Log (Server b) Effect where
  Steps := After
  nil s := ⟨(List.append_nil _).symm, rfl, rfl⟩
  append {s t u x y} h h' := by
    refine ⟨?_, ?_, h'.db.trans h.db⟩
    · rw [h'.trace, h.trace, List.append_assoc]
    · rw [h'.pending, h.pending, List.foldl_append]

/-- Ask and record the answer. -/
def perform {α : Type} (ask : Server b → Except Exn α) (effect : Except Exn α → Effect) :
    Act (Server b) Exn α := do
  let s ← get
  set (s.log (effect (ask s)))
  answer (ask s)

/-- A computation of the session manager. -/
def onSessions {α : Type} (x : Act (SessionManager b) Exn α) : Act (Server b) Exn α :=
  within (fun s => s.sessions) (fun sessions s => { s with sessions }) x

theorem after_log (e : Effect) (s : Server b) : After s [e] (s.log e) := ⟨rfl, rfl, rfl⟩

section Perform

variable {α : Type} {ask : Server b → Except Exn α} {effect : Except Exn α → Effect} {s : Server b}

theorem exec_perform :
    exec (perform ask effect) s = (ask s, s.log (effect (ask s))) := by
  simp only [perform, exec_bind, exec_get, exec_set, exec_answer]

/-- Whatever the answer, asking has one effect. -/
theorem emits_perform {Q : Except Exn α → List Effect → Prop} (h : Q (ask s) [effect (ask s)]) :
    Emits (effects b) (perform ask effect) Q s := by
  rw [Emits, wp, exec_perform]
  exact ⟨_, after_log _ s, h⟩

end Perform

/-- Logging one effect before a result. -/
theorem emits_log {α : Type} {e : Server b → Effect} {a : α}
    {Q : Except Exn α → List Effect → Prop} {s : Server b} (h : Q (.ok a) [e s]) :
    Emits (effects b) (do modify fun s => s.log (e s); return a) Q s :=
  ⟨_, after_log _ s, h⟩

end Server

namespace World

variable (w : World)

/-- `Group::load` -/
def loadGroup (groupAlias : String) : Act (Server b) Exn (Row Group) :=
  Server.perform (fun s => Group.load (w.several s.trace) groupAlias s.sessions.db)
    (.loadGroup groupAlias)

/-- `User::load` -/
def loadUser (name : String) (groupId : Nat) : Act (Server b) Exn (Row User) :=
  Server.perform (fun s => User.load (w.several s.trace) name groupId s.sessions.db)
    (.loadUser name groupId)

theorem emits_loadGroup (groupAlias : String) (s : Server b) :
    Emits (Server.effects b) (w.loadGroup groupAlias) (fun r out => out = [.loadGroup groupAlias r] ∧
      Group.load (w.several s.trace) groupAlias s.sessions.db = r) s :=
  Server.emits_perform ⟨rfl, rfl⟩

theorem emits_loadUser (name : String) (groupId : Nat) (s : Server b) :
    Emits (Server.effects b) (w.loadUser name groupId) (fun r out => out = [.loadUser name groupId r] ∧
      User.load (w.several s.trace) name groupId s.sessions.db = r) s :=
  Server.emits_perform ⟨rfl, rfl⟩

/-- `TransactionFactory::create…` -/
def createTransaction (data : TransactionData) : Act (Server b) Exn Unit :=
  Server.perform (fun s => w.create s.trace data) (.create data)

/-- `SessionManager::getSession` for the token and the ip of the request. -/
def getSession (request : Request) : Act (Server b) Exn Session :=
  Server.onSessions (SessionManager.getSession w.cfg request.jwtToken request.clientIp)

end World

/-! ## A world that computes

A library and a world in which nothing fails, to run the handlers on concrete requests. -/

namespace PlainLibrary

/-- Two lower case digits a byte. -/
def binToHex (bin : Bytes) : String :=
  String.ofList (bin.flatMap fun c => [Nat.digitChar (c.toNat / 16), Nat.digitChar (c.toNat % 16)])

def hexDigit (c : Char) : Option Nat :=
  if '0' ≤ c ∧ c ≤ '9' then some (c.toNat - 48)
  else if 'a' ≤ c ∧ c ≤ 'f' then some (c.toNat - 87)
  else none

def readHex : List Char → Option Bytes
  | [] => some []
  | [_] => none
  | a :: c :: rest =>
    match hexDigit a, hexDigit c, readHex rest with
    | some m, some n, some bin => some (UInt8.ofNat (m * 16 + n) :: bin)
    | _, _, _ => none

/-- The number written in decimal digits. -/
def readNat : List Char → Nat → Option Nat
  | [], n => some n
  | c :: rest, n => if '0' ≤ c ∧ c ≤ '9' then readNat rest (n * 10 + (c.toNat - 48)) else none

/-- `^[a-z0-9-]{3,120}$` -/
def isValidGroupAlias (groupAlias : String) : Bool :=
  decide (3 ≤ groupAlias.toList.length ∧ groupAlias.toList.length ≤ 120) &&
    groupAlias.toList.all fun c => ('a' ≤ c && c ≤ 'z') || ('0' ≤ c && c ≤ '9') || c == '-'

/-- The number in the digits of a field. -/
def readField (s : List Char) (start length : Nat) : Option Nat :=
  readNat ((s.drop start).take length) 0

/-- `Z`, or an offset as `+01:00`, in seconds. -/
def readZone : List Char → Option Int
  | ['Z'] => some 0
  | sign :: zone => do
    let hours ← readField zone 0 2
    let minutes ← readField zone 3 2
    let offset : Int := hours * 3600 + minutes * 60
    if sign = '+' then some offset else if sign = '-' then some (-offset) else none
  | [] => none

/-- The days from 1970 to a date of the Gregorian calendar. The years are counted from March on. -/
def daysOf (year month day : Int) : Int :=
  let marchYear := if month ≤ 2 then year - 1 else year
  marchYear * 365 + marchYear / 4 - marchYear / 100 + marchYear / 400 +
    (153 * ((month + 9) % 12) + 2) / 5 + day - 719469

/-- A date as `2022-03-01T01:00:00+01:00`: its fields and its offset. -/
def readDate (s : List Char) : Option (DateTime × Int) := do
  let year ← readField s 0 4
  let month ← readField s 5 2
  let day ← readField s 8 2
  let hour ← readField s 11 2
  let minute ← readField s 14 2
  let second ← readField s 17 2
  let zone ← readZone (s.drop 19)
  some ((((daysOf year month day * 24 + hour) * 60 + minute) * 60 + second) * 1000000, zone)

/-- The year and the month of a date of the Gregorian calendar. -/
def yearMonthOf (date : DateTime) : Int × Int :=
  let days := date / (86400 * 1000000) + 719468
  let era := days / 146097
  let dayOfEra := days % 146097
  let yearOfEra := (dayOfEra - dayOfEra / 1460 + dayOfEra / 36524 - dayOfEra / 146096) / 365
  let dayOfYear := dayOfEra - (365 * yearOfEra + yearOfEra / 4 - yearOfEra / 100)
  let marchMonth := (5 * dayOfYear + 2) / 153
  let month := if marchMonth < 10 then marchMonth + 3 else marchMonth - 9
  (era * 400 + yearOfEra + (if month ≤ 2 then 1 else 0), month)

def addressTypes : List (String × AddressType) :=
  [("NONE", .none), ("HUMAN", .human), ("PROJECT", .project), ("SUBACCOUNT", .subaccount)]

end PlainLibrary

open PlainLibrary in
/-- Transactions in the clear, numbers and dates (in seconds) as decimal digits. -/
def plainLibrary : Library where
  binToHex := binToHex
  hexToBin s := readHex s.toList
  binToBase64 := binToHex
  base64ToBin s := readHex s.toList
  genericHash bin := bin.take 32
  bodyBytes body := bytesOf body.memo
  getSerialized transaction := bytesOf transaction.body.memo ++ transaction.parentMessageId.getD []
  isValidGroupAlias := isValidGroupAlias
  getAddressStringFromType type := ((addressTypes.find? fun t => t.2 == type).map (·.1)).getD ""
  getAddressTypeFromString s := (addressTypes.lookup s).getD .none
  skToCurve25519 key := key
  pkToCurve25519 key := key
  encrypt _ _ memo := bytesOf memo
  decrypt _ _ bin := some (String.ofList (bin.map fun c => Char.ofNat c.toNat))
  mpfrSetStr s := (readNat s.toList 0).map fun n => .num n
  calculateDecay balance _ _ := .ok balance
  amountToString _ := ""
  parse s := match readNat s.toList 0 with
    | some n => .ok (n * 1000000, 0)
    | none => .error "invalid date"
  format _ := ""
  month _ := 1
  year _ := 1970
  getFullString _ := ""

open PlainLibrary in
/-- The same with dates of the Gregorian calendar. -/
def datedLibrary : Library where
  __ := plainLibrary
  parse s := match readDate s.toList with
    | some date => .ok date
    | none => .error "invalid date"
  month date := (yearMonthOf date).2
  year date := (yearMonthOf date).1

/-- A world on 1 January 1971 in which everybody answers: no address has transactions, and the ids
of the messages count the effects before them. -/
def plainWorld : World where
  lib := plainLibrary
  cfg := plainConfig
  clock _ := 365 * 86400 * 1000000
  tzd := 0
  several _ _ := none
  request _ _ _ := .ok (.obj [("result", .obj [("transactionNrs", .arr [])])])
  sendMessage trace _ _ := .ok (plainLibrary.binToHex [UInt8.ofNat trace.length])
  create _ _ := .ok ()
  createLeg _ _ _ := .ok ()
  sign _ _ _ := .ok []
  validate _ _ := .ok ()

end GradidoConnector
