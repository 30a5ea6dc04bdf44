import GradidoConnector.CrossGroup
import GradidoConnector.JsonOpenConnection
import GradidoConnector.JsonSendTransactionIota

/-!
# Malformed hex

`hexToBin` gives a null pointer for a text that is no hex. `JsonListTransactions` looks at the
result; `JsonOpenConnection`, `JsonPackTransaction` and `JsonSendTransactionIota` do not, and hand
it on.

* `Spells` says that a text is the hex of so many bytes.
* A missing result is handed on if a server would end whose library ends the process on it
  (`HandsMissing`). `strict` is that library: it fails on a missing result, or a shorter memory
  where it reads a key, and is the given one on everything else.
* `Alive` is a library that ends the process on nothing else.
* `Rejects` is what is to become of a malformed text: it is not handed on, and the request is
  refused.

Results:
* `rejects_open_iff`, `rejects_pack_iff`, `rejects_send_iff`: exactly when the three handlers do so.
* **`hexRejected_iff`**: the three together.
-/

namespace GradidoConnector

open GradidoConnector.Base GradidoConnector.Base.Act

/-! ## What is promised -/

/-- The text is the hex of `n` bytes. -/
def Spells (lib : Library) (n : Nat) (hex : String) : Prop :=
  ∃ bin, lib.hexToBin hex = some bin ∧ bin.length = n

/-- An error document or an exception. -/
def Refused : Except Exn Document → Prop
  | .ok d => d.isError = true
  | .error e => ∀ why, e ≠ .crash why

/-- A handler hands a missing result on: with a library that ends the process on it, `why` says, the
handler does. -/
def HandsMissing (run : String → Except Exn Document) : Prop :=
  ∀ why, run why = .error (.crash why)

/-- No missing result is handed on, and a malformed request is refused. -/
structure Rejects (run : String → Except Exn Document) (malformed : Prop)
    (result : Except Exn Document) : Prop where
  notHanded : ¬ HandsMissing run
  refused : malformed → Refused result

variable {run : String → Except Exn Document} {malformed : Prop} {result : Except Exn Document}

/-- What does not depend on the library hands nothing to it. -/
theorem not_handsMissing (h : ∀ why, run why = result) : ¬ HandsMissing run := by
  intro hall
  have heq := ((h "a").symm.trans (hall "a")).symm.trans ((h "b").symm.trans (hall "b"))
  exact absurd (Exn.crash.inj (Except.error.inj heq)) (by decide)

/-- Where no missing result is handed on, it is left to refuse a malformed request. -/
theorem rejects_iff_refused (h : ∀ why, run why = result) :
    Rejects run malformed result ↔ (malformed → Refused result) :=
  ⟨Rejects.refused, fun hrefused => ⟨not_handsMissing h, hrefused⟩⟩

/-! ## Opening a connection -/

section Open

open JsonOpenConnection

/-- With a signature, `verify` does not end the process. -/
def Opener.Alive (o : Opener) : Prop :=
  ∀ key message signature why, o.verify key message (some signature) ≠ .error (.crash why)

/-- The library that ends the process on a missing signature, and on a key that is missing or has
less than 32 bytes. -/
def Opener.strict (o : Opener) (why : String) : Opener where
  __ := o
  keyAt
    | some pubkey => if 32 ≤ pubkey.length then o.keyAt (some pubkey) else .error (.crash why)
    | none => .error (.crash why)
  keyAt_of_le pubkey h := by
    dsimp only
    rw [if_pos h, o.keyAt_of_le pubkey h]
  verify key message
    | some signature => o.verify key message (some signature)
    | none => .error (.crash why)

/-- A key or a signature that is read is not spelled. -/
def OpenMalformed (o : Opener) (request : OpenRequest) : Prop :=
  request.method = "POST" ∧ (¬ Spells o.lib 32 (request.params.str "community-key-A") ∨
    ¬ Spells o.lib 64 (request.params.str "signature"))

/-- The key and the signature are hex, the key of 32 bytes at least; if one is of another length
than it should, the signature does not verify. -/
def OpenSound (o : Opener) (communityPubkeyHex signatureHex : String) : Prop :=
  ∃ communityPubkey signature, o.lib.hexToBin communityPubkeyHex = some communityPubkey ∧
    o.lib.hexToBin signatureHex = some signature ∧ 32 ≤ communityPubkey.length ∧
    (communityPubkey.length ≠ 32 ∨ signature.length ≠ 64 →
      o.verify (communityPubkey.take 32) o.serverPubkey (some signature) ≠ .ok true)

theorem refused_catchExceptions {e : Exn} (h : ∀ why, e ≠ .crash why) :
    Refused (catchExceptions (.error e)) := by
  cases e with
  | crash why => exact absurd rfl (h why)
  | unknown | stdException => exact fun _ h => by cases h
  | _ => exact rfl

variable {o : Opener} {request : OpenRequest}

variable {communityPubkeyHex signatureHex : String} {communityPubkey signature : Bytes}

/-- A missing signature, a missing key and one that is too short are handed on. -/
theorem verifyCaller_strict (why : String)
    (h : ¬ ∃ communityPubkey signature, o.lib.hexToBin communityPubkeyHex = some communityPubkey ∧
      o.lib.hexToBin signatureHex = some signature ∧ 32 ≤ communityPubkey.length) :
    verifyCaller (o.strict why) communityPubkeyHex signatureHex = .error (.crash why) := by
  cases hkey : o.lib.hexToBin communityPubkeyHex with
  | none => simp only [verifyCaller, Opener.strict, hkey, bind, Except.bind]
  | some communityPubkey =>
    by_cases hlength : 32 ≤ communityPubkey.length
    · cases hsignature : o.lib.hexToBin signatureHex with
      | none =>
        simp only [verifyCaller, Opener.strict, hkey, hsignature, bind, Except.bind, if_pos hlength,
          o.keyAt_of_le communityPubkey hlength]
      | some signature => exact absurd ⟨_, _, hkey, hsignature, hlength⟩ h
    · simp only [verifyCaller, Opener.strict, hkey, bind, Except.bind, if_neg hlength]

/-- A key and a signature that are there, as `verify` answers them. -/
theorem verifyCaller_eq (hkey : o.lib.hexToBin communityPubkeyHex = some communityPubkey)
    (hlength : 32 ≤ communityPubkey.length)
    (hsignature : o.lib.hexToBin signatureHex = some signature) :
    verifyCaller o communityPubkeyHex signatureHex =
      match o.verify (communityPubkey.take 32) o.serverPubkey (some signature) with
      | .error e => .error e
      | .ok false => .error (.ed25519VerifyException "cannot verify signature"
          (o.lib.binToHex o.serverPubkey) signatureHex)
      | .ok true => .ok (Document.stateSuccess.addMember "token" (.str (cString
          (o.cfg.signer.sign (SessionManager.connectionToken o.cfg o.now))))) := by
  simp only [verifyCaller, hkey, hsignature, o.keyAt_of_le communityPubkey hlength, bind, Except.bind]
  cases o.verify (communityPubkey.take 32) o.serverPubkey (some signature) with
  | error e => rfl
  | ok valid => cases valid <;> rfl

/-- The answer to a caller is refused where its signature does not verify. -/
theorem refused_verifyCaller_iff (halive : o.Alive)
    (hkey : o.lib.hexToBin communityPubkeyHex = some communityPubkey)
    (hlength : 32 ≤ communityPubkey.length)
    (hsignature : o.lib.hexToBin signatureHex = some signature) :
    Refused (catchExceptions (verifyCaller o communityPubkeyHex signatureHex)) ↔
      o.verify (communityPubkey.take 32) o.serverPubkey (some signature) ≠ .ok true := by
  rw [verifyCaller_eq hkey hlength hsignature]
  cases hverify : o.verify (communityPubkey.take 32) o.serverPubkey (some signature) with
  | error e =>
    refine iff_of_true (refused_catchExceptions fun why heq => ?_) nofun
    exact halive _ _ _ why (heq ▸ hverify)
  | ok valid =>
    cases valid with
    | false => exact iff_of_true rfl (by simp)
    | true =>
      refine iff_of_false (fun h => ?_) (by simp)
      cases h

theorem spells_iff {lib : Library} {n : Nat} {hex : String} {bin : Bytes}
    (h : lib.hexToBin hex = some bin) : Spells lib n hex ↔ bin.length = n := by
  constructor
  · rintro ⟨found, hfound, hlength⟩
    obtain rfl := Option.some.inj (h.symm.trans hfound)
    exact hlength
  · exact fun hlength => ⟨bin, h, hlength⟩

/-- **Opening a connection** rejects malformed hex exactly where what it converts is `OpenSound`. -/
theorem rejects_open_iff (halive : o.Alive) :
    Rejects (fun why => handleRequest (o.strict why) request) (OpenMalformed o request)
        (handleRequest o request) ↔
      (request.method = "POST" → request.params.str "community-key-A" ≠ "" →
        request.params.str "signature" ≠ "" →
        OpenSound o (request.params.str "community-key-A") (request.params.str "signature")) := by
  unfold handleRequest
  by_cases hpost : request.method = "POST"
  · simp only [if_pos hpost, openConnection]
    by_cases hempty : (request.params.str "community-key-A").isEmpty ∨
        (request.params.str "signature").isEmpty
    · simp only [if_pos hempty]
      rw [rejects_iff_refused fun _ => rfl]
      refine iff_of_true (fun _ => rfl) fun _ hkey hsignature => ?_
      simp [hkey, hsignature] at hempty
    · simp only [if_neg hempty]
      rw [not_or, String.isEmpty_iff, String.isEmpty_iff] at hempty
      by_cases hsome : ∃ communityPubkey signature,
          o.lib.hexToBin (request.params.str "community-key-A") = some communityPubkey ∧
          o.lib.hexToBin (request.params.str "signature") = some signature ∧
          32 ≤ communityPubkey.length
      · obtain ⟨communityPubkey, signature, hkey, hsignature, hlength⟩ := hsome
        have hstrict (why : String) := verifyCaller_eq (o := o.strict why) hkey hlength hsignature
        have hgiven := verifyCaller_eq hkey hlength hsignature
        rw [rejects_iff_refused fun why => by rw [hstrict why, hgiven]; rfl,
          refused_verifyCaller_iff halive hkey hlength hsignature, OpenMalformed, spells_iff hkey,
          spells_iff hsignature]
        constructor
        · exact fun h _ _ _ => ⟨communityPubkey, signature, hkey, hsignature, hlength,
            fun hne => h ⟨hpost, hne⟩⟩
        · rintro h ⟨-, hne⟩
          obtain ⟨communityPubkey', signature', hkey', hsignature', -, hverify⟩ :=
            h hpost hempty.1 hempty.2
          obtain rfl := Option.some.inj (hkey.symm.trans hkey')
          obtain rfl := Option.some.inj (hsignature.symm.trans hsignature')
          exact hverify hne
      · refine iff_of_false (fun h => h.notHanded fun why => ?_) fun h => hsome ?_
        · dsimp only
          rw [verifyCaller_strict why hsome]
          rfl
        · obtain ⟨communityPubkey, signature, hkey, hsignature, hlength, -⟩ :=
            h hpost hempty.1 hempty.2
          exact ⟨communityPubkey, signature, hkey, hsignature, hlength⟩
  · simp only [if_neg hpost]
    rw [rejects_iff_refused fun _ => rfl]
    exact iff_of_true (fun h => absurd h.1 hpost) (fun h => absurd h hpost)

end Open

/-! ## Packing a transaction -/

section Pack

open JsonPackTransaction

/-- A key that is given is missing. A request to register an address may give one key of the two. -/
def PackData.missing (params : Params) : PackData → Bool
  | .transfer senderPubkey _ _ recipientPubkey => senderPubkey.isNone || recipientPubkey.isNone
  | .creation recipientPubkey _ _ => recipientPubkey.isNone
  | .registerAddress userRootPubkey _ _ subaccountPubkey =>
    (!(params.str "userRootPubkey").isEmpty && userRootPubkey.isNone) ||
      (!(params.str "subaccountPubkey").isEmpty && subaccountPubkey.isNone)

/-- The keys of a transaction. -/
def PackData.keys : PackData → List (Option Bytes)
  | .transfer senderPubkey _ _ recipientPubkey => [senderPubkey, recipientPubkey]
  | .creation recipientPubkey _ _ => [recipientPubkey]
  | .registerAddress userRootPubkey _ _ subaccountPubkey => [userRootPubkey, subaccountPubkey]

/-- Where no key is missing the library does not end the process. -/
structure Packer.Alive (p : Packer) : Prop where
  create : ∀ params data why, data.missing params = false → p.create data ≠ .error (.crash why)
  createLeg : ∀ data leg why, p.createLeg data leg ≠ .error (.crash why)
  validate : ∀ body why, p.validate body ≠ .error (.crash why)
  bodyBytes : ∀ body why, p.bodyBytes body ≠ .error (.crash why)

/-- The library that ends the process on a missing key. -/
def Packer.strict (p : Packer) (params : Params) (why : String) : Packer where
  __ := p
  create data := if data.missing params then .error (.crash why) else p.create data

/-- The fields with keys of a request of this type. -/
def pubkeyFields (transactionType : String) : List String :=
  if transactionType = "transfer" then ["senderPubkey", "recipientPubkey"]
  else if transactionType = "creation" then ["recipientPubkey"]
  else if transactionType = "registerAddress" then ["userRootPubkey", "subaccountPubkey"]
  else []

/-- A key of the request is not spelled; a key of an address is given where it is not empty. -/
def PackMalformed (p : Packer) (request : PackRequest) : Prop :=
  ∃ name ∈ pubkeyFields (request.params.str "transactionType"), ∃ hex,
    request.params.getStringParameter name = .ok hex ∧
    (request.params.str "transactionType" = "registerAddress" → hex ≠ "") ∧ ¬ Spells p.lib 32 hex

/-- A transaction as it is asked for: its data and its two groups. -/
structure Draft where
  data : PackData
  groupAlias : String
  otherGroup : String

/-- What a complete request is packed from. -/
structure Submission extends Draft where
  mCreated : DateTime

/-- The transfer of a request, or the answer to one that is not complete. -/
def transferDraft (p : Packer) (request : PackRequest) : Except (Except Exn Document) Draft :=
  match request.params.getStringParameter "senderPubkey",
    request.params.getStringParameter "recipientPubkey",
    request.params.getStringParameter "amount" with
  | .error document, _, _ | _, .error document, _ | _, _, .error document => .error (.ok document)
  | .ok senderPubkey, .ok recipientPubkey, .ok amount =>
    match readCoinGroupId request with
    | .error e => .error (.error e)
    | .ok coinGroupId => .ok ⟨.transfer (p.lib.hexToBin senderPubkey) amount coinGroupId
        (p.lib.hexToBin recipientPubkey), request.params.str "senderGroupAlias",
        request.params.str "recipientGroupAlias"⟩

/-- The creation of a request, as above. -/
def creationDraft (p : Packer) (request : PackRequest) : Except (Except Exn Document) Draft :=
  match request.params.getStringParameter "recipientPubkey",
    request.params.getStringParameter "amount",
    request.params.getStringParameter "targetDate" with
  | .error document, _, _ | _, .error document, _ | _, _, .error document => .error (.ok document)
  | .ok recipientPubkey, .ok amount, .ok targetDateString =>
    match readTargetDate p targetDateString with
    | .error document => .error (.ok document)
    | .ok targetDate =>
      .ok ⟨.creation (p.lib.hexToBin recipientPubkey) amount targetDate, "", ""⟩

/-- The registration of a request, as above. -/
def registerAddressDraft (p : Packer) (request : PackRequest) :
    Except (Except Exn Document) Draft :=
  match request.params.getStringParameter "addressType" with
  | .error document => .error (.ok document)
  | .ok addressTypeString =>
    if (request.params.str "userRootPubkey").isEmpty ∧
        (request.params.str "subaccountPubkey").isEmpty then
      .error (.ok (.stateError "userRootPubkey or subaccountPubkey must be given"))
    else .ok ⟨.registerAddress (hexIfGiven p.lib (request.params.str "userRootPubkey"))
      (p.lib.getAddressTypeFromString addressTypeString)
      (hexIfGiven p.lib (request.params.str "nameHash"))
      (hexIfGiven p.lib (request.params.str "subaccountPubkey")),
      request.params.str "currentGroupAlias", request.params.str "newGroupAlias"⟩

/-- The transaction of a request of this type. -/
def draft (p : Packer) (request : PackRequest) (transactionType : String) :
    Except (Except Exn Document) Draft :=
  if transactionType = "transfer" then transferDraft p request
  else if transactionType = "creation" then creationDraft p request
  else if transactionType = "registerAddress" then registerAddressDraft p request
  else .error (.ok (.stateError "transaction_type unknown"))

/-- The parameters of a request, or the answer to one that is not complete. -/
def submission (p : Packer) (request : PackRequest) :
    Except (Except Exn Document) Submission :=
  match readParameter p request with
  | .error document => .error (.ok document)
  | .ok (transactionType, mCreated) =>
    (draft p request transactionType).map fun d => { d with mCreated := mCreated }

/-- What becomes of a draft: its legs, an error document or an exception. -/
def legsOf (p : Packer) :
    Except (Except Exn Document) Draft → Except Exn (Except Document (List TransactionGroupAlias))
  | .error (.error e) => .error e
  | .error (.ok document) => .ok (.error document)
  | .ok d => do
    p.create d.data
    return .ok (← legsFor p d.data d.groupAlias d.otherGroup)

/-- What becomes of a complete request. -/
def packSubmission (p : Packer) (memo : String) (s : Submission) : Except Exn Document := do
  p.create s.data
  resultBase64Transactions p memo s.mCreated (← legsFor p s.data s.groupAlias s.otherGroup)

variable {p : Packer} {request : PackRequest} {s : Submission}

theorem transfer_eq : transfer p request = legsOf p (transferDraft p request) := by
  unfold transfer transferDraft
  cases request.params.getStringParameter "senderPubkey" with
  | error document => rfl
  | ok senderPubkey =>
    cases request.params.getStringParameter "recipientPubkey" with
    | error document => rfl
    | ok recipientPubkey =>
      cases request.params.getStringParameter "amount" with
      | error document => rfl
      | ok amount =>
        dsimp only
        cases readCoinGroupId request <;> rfl

theorem creation_eq : creation p request = legsOf p (creationDraft p request) := by
  unfold creation creationDraft
  cases request.params.getStringParameter "recipientPubkey" with
  | error document => rfl
  | ok recipientPubkey =>
    cases request.params.getStringParameter "amount" with
    | error document => rfl
    | ok amount =>
      cases request.params.getStringParameter "targetDate" with
      | error document => rfl
      | ok targetDateString =>
        dsimp only
        cases readTargetDate p targetDateString with
        | error document => rfl
        | ok targetDate => rfl

theorem registerAddress_eq :
    registerAddress p request = legsOf p (registerAddressDraft p request) := by
  unfold registerAddress registerAddressDraft
  cases request.params.getStringParameter "addressType" with
  | error document => rfl
  | ok addressTypeString =>
    dsimp only
    split
    · rfl
    · rfl

theorem transactionsOf_eq (transactionType : String) :
    transactionsOf p request transactionType = legsOf p (draft p request transactionType) := by
  unfold transactionsOf draft
  rw [transfer_eq, creation_eq, registerAddress_eq]
  split
  · rfl
  · split
    · rfl
    · split <;> rfl

/-- A request is packed from its parameters alone. -/
theorem handle_eq (p : Packer) (request : PackRequest) :
    handle p request = match submission p request with
      | .error r => r
      | .ok s => packSubmission p (request.params.str "memo") s := by
  unfold handle submission
  cases readParameter p request with
  | error document => rfl
  | ok parameter =>
    obtain ⟨transactionType, mCreated⟩ := parameter
    dsimp only
    rw [transactionsOf_eq]
    cases draft p request transactionType with
    | error r => cases r <;> rfl
    | ok d =>
      simp only [legsOf, packSubmission, Except.map, bind, Except.bind]
      cases p.create d.data with
      | error e => rfl
      | ok _ =>
        dsimp only
        cases legsFor p d.data d.groupAlias d.otherGroup <;> rfl

/-- **What a transfer is drafted from**, where it is. -/
theorem transferDraft_cases :
    (∃ r, transferDraft p request = .error r ∧ Refused r) ∨
    ∃ senderPubkey recipientPubkey amount coinGroupId,
      request.params.getStringParameter "senderPubkey" = .ok senderPubkey ∧
      request.params.getStringParameter "recipientPubkey" = .ok recipientPubkey ∧
      transferDraft p request = .ok ⟨.transfer (p.lib.hexToBin senderPubkey) amount coinGroupId
        (p.lib.hexToBin recipientPubkey), request.params.str "senderGroupAlias",
        request.params.str "recipientGroupAlias"⟩ := by
  unfold transferDraft
  cases hsender : request.params.getStringParameter "senderPubkey" with
  | error document =>
    exact Or.inl ⟨_, rfl, request.params.isError_of_string _ _ hsender⟩
  | ok senderPubkey =>
    cases hrecipient : request.params.getStringParameter "recipientPubkey" with
    | error document =>
      exact Or.inl ⟨_, rfl, request.params.isError_of_string _ _ hrecipient⟩
    | ok recipientPubkey =>
      cases hamount : request.params.getStringParameter "amount" with
      | error document =>
        exact Or.inl ⟨_, rfl, request.params.isError_of_string _ _ hamount⟩
      | ok amount =>
        dsimp only
        cases hcoin : readCoinGroupId request with
        | ok coinGroupId => exact Or.inr ⟨_, _, _, _, rfl, rfl, rfl⟩
        | error e =>
          refine Or.inl ⟨_, rfl, ?_⟩
          unfold readCoinGroupId at hcoin
          split at hcoin
          · cases hcoin
          · cases hcoin
          · cases hcoin
            exact nofun

/-- **What a creation is drafted from**, where it is. -/
theorem creationDraft_cases :
    (∃ r, creationDraft p request = .error r ∧ Refused r) ∨
    ∃ recipientPubkey amount targetDate,
      request.params.getStringParameter "recipientPubkey" = .ok recipientPubkey ∧
      creationDraft p request =
        .ok ⟨.creation (p.lib.hexToBin recipientPubkey) amount targetDate, "", ""⟩ := by
  unfold creationDraft
  cases hrecipient : request.params.getStringParameter "recipientPubkey" with
  | error document =>
    exact Or.inl ⟨_, rfl, request.params.isError_of_string _ _ hrecipient⟩
  | ok recipientPubkey =>
    cases hamount : request.params.getStringParameter "amount" with
    | error document =>
      exact Or.inl ⟨_, rfl, request.params.isError_of_string _ _ hamount⟩
    | ok amount =>
      cases htarget : request.params.getStringParameter "targetDate" with
      | error document =>
        exact Or.inl ⟨_, rfl, request.params.isError_of_string _ _ htarget⟩
      | ok targetDateString =>
        dsimp only
        unfold readTargetDate
        cases p.lib.parse targetDateString with
        | error what => exact Or.inl ⟨_, rfl, rfl⟩
        | ok targetDate => exact Or.inr ⟨_, _, _, rfl, rfl⟩

/-- **What a registration is drafted from**, where it is. -/
theorem registerAddressDraft_cases :
    (∃ r, registerAddressDraft p request = .error r ∧ Refused r) ∨
    ∃ addressType, registerAddressDraft p request =
      .ok ⟨.registerAddress (hexIfGiven p.lib (request.params.str "userRootPubkey")) addressType
        (hexIfGiven p.lib (request.params.str "nameHash"))
        (hexIfGiven p.lib (request.params.str "subaccountPubkey")),
        request.params.str "currentGroupAlias", request.params.str "newGroupAlias"⟩ := by
  unfold registerAddressDraft
  cases htype : request.params.getStringParameter "addressType" with
  | error document =>
    exact Or.inl ⟨_, rfl, request.params.isError_of_string _ _ htype⟩
  | ok addressTypeString =>
    dsimp only
    split
    · exact Or.inl ⟨_, rfl, rfl⟩
    · exact Or.inr ⟨_, rfl⟩

theorem refused_of_draft {transactionType : String} {r : Except Exn Document}
    (h : draft p request transactionType = .error r) : Refused r := by
  unfold draft at h
  split at h
  · rcases transferDraft_cases with ⟨r', heq, hr⟩ | ⟨_, _, _, _, _, _, heq⟩
    · obtain rfl := Except.error.inj (heq.symm.trans h)
      exact hr
    · exact nomatch heq.symm.trans h
  · split at h
    · rcases creationDraft_cases with ⟨r', heq, hr⟩ | ⟨_, _, _, _, heq⟩
      · obtain rfl := Except.error.inj (heq.symm.trans h)
        exact hr
      · exact nomatch heq.symm.trans h
    · split at h
      · rcases registerAddressDraft_cases with ⟨r', heq, hr⟩ | ⟨_, heq⟩
        · obtain rfl := Except.error.inj (heq.symm.trans h)
          exact hr
        · exact nomatch heq.symm.trans h
      · cases h
        rfl

/-- A request that is not complete is refused. -/
theorem refused_of_submission {r : Except Exn Document} (h : submission p request = .error r) :
    Refused r := by
  unfold submission at h
  cases hparam : readParameter p request with
  | error document =>
    rw [hparam] at h
    cases h
    exact isError_of_readParameter hparam
  | ok parameter =>
    rw [hparam] at h
    dsimp only at h
    cases hdraft : draft p request parameter.1 with
    | error r' =>
      rw [hdraft] at h
      cases h
      exact refused_of_draft hdraft
    | ok d =>
      rw [hdraft] at h
      cases h

/-- A leg is valid and can be serialized. -/
def LegAccepted (p : Packer) (memo : String) (mCreated : DateTime) (leg : TransactionGroupAlias) :
    Prop :=
  p.validate (dated memo mCreated leg.transaction) = .ok true ∧
    ∃ bodyBytes, p.bodyBytes (dated memo mCreated leg.transaction) = .ok bodyBytes

/-- The library builds the transaction and its legs, and accepts each of them. -/
def PackAccepted (p : Packer) (memo : String) (s : Submission) : Prop :=
  p.create s.data = .ok () ∧ ∃ legs, legsFor p s.data s.groupAlias s.otherGroup = .ok legs ∧
    ∀ leg ∈ legs, LegAccepted p memo s.mCreated leg

theorem packSubmission_strict (memo why : String) :
    packSubmission (p.strict request.params why) memo s =
      if s.data.missing request.params then .error (.crash why) else packSubmission p memo s := by
  have hlegs : ∀ legs, entries (p.strict request.params why) memo s.mCreated legs =
      entries p memo s.mCreated legs := by
    intro legs
    induction legs with
    | nil => rfl
    | cons leg rest ih =>
      rw [entries, entries, ih]
      rfl
  unfold packSubmission
  by_cases hmissing : s.data.missing request.params = true
  · rw [if_pos hmissing]
    simp only [Packer.strict, if_pos hmissing]
    rfl
  · rw [if_neg hmissing]
    simp only [resultBase64Transactions, hlegs]
    simp only [Packer.strict, if_neg hmissing]
    rfl

/-- **How the loop over the legs ends**: with all of them accepted, or refused. -/
theorem entries_cases (halive : p.Alive) (memo : String) (mCreated : DateTime)
    (legs : List TransactionGroupAlias) :
    ((∀ leg ∈ legs, LegAccepted p memo mCreated leg) ∧
      ∃ es, entries p memo mCreated legs = .ok (.ok es)) ∨
    ((¬ ∀ leg ∈ legs, LegAccepted p memo mCreated leg) ∧
      ((∃ d, d.isError = true ∧ entries p memo mCreated legs = .ok (.error d)) ∨
        ∃ e, (∀ why, e ≠ .crash why) ∧ entries p memo mCreated legs = .error e)) := by
  induction legs with
  | nil => exact Or.inl ⟨fun _ h => absurd h List.not_mem_nil, [], rfl⟩
  | cons leg rest ih =>
    rw [List.forall_mem_cons, entries]
    cases hvalid : p.validate (dated memo mCreated leg.transaction) with
    | error e =>
      refine Or.inr ⟨fun h => ?_, Or.inr ⟨e, fun why heq => ?_, rfl⟩⟩
      · cases hvalid.symm.trans h.1.1
      · exact halive.validate _ why (heq ▸ hvalid)
    | ok valid =>
      cases valid with
      | false =>
        refine Or.inr ⟨fun h => ?_, Or.inl ⟨_, rfl, rfl⟩⟩
        cases hvalid.symm.trans h.1.1
      | true =>
        cases hbytes : p.bodyBytes (dated memo mCreated leg.transaction) with
        | error e =>
          have hnot : ¬ (LegAccepted p memo mCreated leg ∧
              ∀ leg ∈ rest, LegAccepted p memo mCreated leg) := by
            rintro ⟨⟨-, bodyBytes, hb⟩, -⟩
            cases hbytes.symm.trans hb
          refine Or.inr ⟨hnot, ?_⟩
          simp only [bind, Except.bind, Bool.not_true, Bool.false_eq_true, if_false]
          split
          · exact Or.inl ⟨_, rfl, rfl⟩
          · exact Or.inr ⟨e, fun why heq => halive.bodyBytes _ why (heq ▸ hbytes), rfl⟩
        | ok bodyBytes =>
          have hleg : LegAccepted p memo mCreated leg := ⟨hvalid, bodyBytes, hbytes⟩
          simp only [bind, Except.bind, Bool.not_true, Bool.false_eq_true, if_false]
          rcases ih with ⟨hrest, es, hes⟩ | ⟨hrest, ⟨d, hd, hes⟩ | ⟨e, he, hes⟩⟩
          · exact Or.inl ⟨⟨hleg, hrest⟩, _, by rw [hes]; rfl⟩
          · exact Or.inr ⟨fun h => hrest h.2, Or.inl ⟨d, hd, by rw [hes]; rfl⟩⟩
          · exact Or.inr ⟨fun h => hrest h.2, Or.inr ⟨e, he, by rw [hes]⟩⟩

/-- The legs are built, or the builder throws. -/
theorem legsFor_error (halive : p.Alive) {data : PackData} {groupAlias otherGroup : String} {e : Exn}
    (h : legsFor p data groupAlias otherGroup = .error e) : ∀ why, e ≠ .crash why := by
  rintro why rfl
  unfold legsFor at h
  split at h
  · cases hout : p.createLeg data (.outbound otherGroup) with
    | error e' =>
      rw [hout] at h
      cases h
      exact halive.createLeg _ _ why hout
    | ok _ =>
      cases hin : p.createLeg data (.inbound groupAlias) with
      | error e' =>
        rw [hout, hin] at h
        cases h
        exact halive.createLeg _ _ why hin
      | ok _ =>
        rw [hout, hin] at h
        cases h
  · cases h

/-- A complete request is refused where the library does not accept it. -/
theorem refused_packSubmission_iff (halive : p.Alive) {memo : String}
    (hmissing : s.data.missing request.params = false) :
    Refused (packSubmission p memo s) ↔ ¬ PackAccepted p memo s := by
  unfold packSubmission PackAccepted
  cases hcreate : p.create s.data with
  | error e =>
    refine iff_of_true (fun why heq => ?_) fun h => nomatch h.1
    exact halive.create _ _ why hmissing (heq ▸ hcreate)
  | ok _ =>
    cases hlegs : legsFor p s.data s.groupAlias s.otherGroup with
    | error e =>
      refine iff_of_true ?_ fun ⟨_, legs, h, _⟩ => nomatch h
      exact legsFor_error halive hlegs
    | ok legs =>
      simp only [bind, Except.bind, resultBase64Transactions, true_and, Except.ok.injEq,
        exists_eq_left']
      rcases entries_cases halive memo s.mCreated legs with
        ⟨hall, es, hes⟩ | ⟨hnot, ⟨d, hd, hes⟩ | ⟨e, he, hes⟩⟩
      · rw [hes]
        refine iff_of_false (fun h => ?_) (not_not_intro hall)
        cases h
      · rw [hes]
        exact iff_of_true hd hnot
      · rw [hes]
        exact iff_of_true he hnot

/-- A key of the transaction has another length than 32 bytes. -/
def WrongLength (data : PackData) : Prop :=
  ∃ pubkey, some pubkey ∈ data.keys ∧ pubkey.length ≠ 32

theorem str_of_eq_ok {params : Params} {name value : String}
    (h : params.getStringParameter name = .ok value) : params.str name = value := by
  rw [Params.str, h]

/-- A field that is converted whatever it holds. -/
theorem not_spells_field_iff {lib : Library} {params : Params} {name hex : String} {P : String → Prop}
    (h : params.getStringParameter name = .ok hex) (hP : P hex)
    (hsome : (lib.hexToBin hex).isNone = false) :
    (∃ hex, params.getStringParameter name = .ok hex ∧ P hex ∧ ¬ Spells lib 32 hex) ↔
      ∃ pubkey, some pubkey = lib.hexToBin hex ∧ pubkey.length ≠ 32 := by
  obtain ⟨pubkey, hpubkey⟩ : ∃ pubkey, lib.hexToBin hex = some pubkey := by
    cases hbin : lib.hexToBin hex with
    | none =>
      rw [hbin] at hsome
      cases hsome
    | some pubkey => exact ⟨pubkey, rfl⟩
  constructor
  · rintro ⟨hex', h', -, hnot⟩
    obtain rfl := Except.ok.inj (h.symm.trans h')
    exact ⟨pubkey, hpubkey.symm, fun hlength => hnot ((spells_iff hpubkey).mpr hlength)⟩
  · rintro ⟨pubkey', hpubkey', hlength⟩
    exact ⟨hex, h, hP, fun hspells => hlength ((spells_iff hpubkey'.symm).mp hspells)⟩

/-- A field that is converted where it is not empty. -/
theorem not_spells_given_iff {lib : Library} {params : Params} {name : String}
    (hsome : (!(params.str name).isEmpty && (hexIfGiven lib (params.str name)).isNone) = false) :
    (∃ hex, params.getStringParameter name = .ok hex ∧ hex ≠ "" ∧ ¬ Spells lib 32 hex) ↔
      ∃ pubkey, some pubkey = hexIfGiven lib (params.str name) ∧ pubkey.length ≠ 32 := by
  cases hparam : params.getStringParameter name with
  | error document =>
    have hempty : params.str name = "" := by rw [Params.str, hparam]
    rw [hempty]
    exact iff_of_false (fun ⟨_, h, _⟩ => nomatch h) (fun ⟨_, h, _⟩ => nomatch h)
  | ok hex =>
    have hstr := str_of_eq_ok hparam
    rw [hstr] at hsome ⊢
    by_cases hempty : hex = ""
    · subst hempty
      refine iff_of_false ?_ (fun ⟨_, h, _⟩ => nomatch h)
      rintro ⟨hex, h, hne, -⟩
      exact hne (Except.ok.inj h).symm
    · have hgiven : hexIfGiven lib hex = lib.hexToBin hex := by
        rw [hexIfGiven, if_neg (by simpa using hempty)]
      rw [hgiven] at hsome ⊢
      rw [← hparam]
      refine not_spells_field_iff (P := fun hex => hex ≠ "") hparam hempty ?_
      simpa [hempty] using hsome

theorem transactionType_of_readParameter {transactionType : String} {mCreated : DateTime}
    (h : readParameter p request = .ok (transactionType, mCreated)) :
    request.params.str "transactionType" = transactionType := by
  unfold readParameter at h
  cases htype : request.params.getStringParameter "transactionType" with
  | error document =>
    rw [htype] at h
    cases h
  | ok type =>
    rw [htype] at h
    dsimp only at h
    split at h
    · cases h
    · split at h
      · cases h
      · cases h
        exact str_of_eq_ok htype

section Malformed

variable {d : Draft} {transactionType : String}

/-- What is drafted without a missing key is malformed where a key has the wrong length. -/
theorem transferMalformed_iff (htype : request.params.str "transactionType" = "transfer")
    (h : transferDraft p request = .ok d) (hmissing : d.data.missing request.params = false) :
    PackMalformed p request ↔ WrongLength d.data := by
  rcases transferDraft_cases with ⟨_, heq, -⟩ | ⟨_, _, _, _, hsender, hrecipient, heq⟩
  · exact nomatch heq.symm.trans h
  · obtain rfl := Except.ok.inj (heq.symm.trans h)
    rw [PackData.missing, Bool.or_eq_false_iff] at hmissing
    simp only [PackMalformed, htype, pubkeyFields, WrongLength, PackData.keys, if_pos, List.mem_cons,
      List.not_mem_nil, or_false, exists_eq_left, or_and_right, exists_or]
    rw [not_spells_field_iff hsender (fun h => absurd h (by decide)) hmissing.1,
      not_spells_field_iff hrecipient (fun h => absurd h (by decide)) hmissing.2]

theorem creationMalformed_iff (htype : request.params.str "transactionType" = "creation")
    (h : creationDraft p request = .ok d) (hmissing : d.data.missing request.params = false) :
    PackMalformed p request ↔ WrongLength d.data := by
  rcases creationDraft_cases with ⟨_, heq, -⟩ | ⟨_, _, _, hrecipient, heq⟩
  · exact nomatch heq.symm.trans h
  · obtain rfl := Except.ok.inj (heq.symm.trans h)
    rw [PackData.missing] at hmissing
    simp only [PackMalformed, htype, pubkeyFields, WrongLength, PackData.keys, if_pos, List.mem_cons,
      List.not_mem_nil, or_false, exists_eq_left, if_neg (show ¬ "creation" = "transfer" by decide)]
    rw [not_spells_field_iff hrecipient (fun h => absurd h (by decide)) hmissing]

theorem registerAddressMalformed_iff
    (htype : request.params.str "transactionType" = "registerAddress")
    (h : registerAddressDraft p request = .ok d)
    (hmissing : d.data.missing request.params = false) :
    PackMalformed p request ↔ WrongLength d.data := by
  rcases registerAddressDraft_cases with ⟨_, heq, -⟩ | ⟨_, heq⟩
  · exact nomatch heq.symm.trans h
  · obtain rfl := Except.ok.inj (heq.symm.trans h)
    rw [PackData.missing, Bool.or_eq_false_iff] at hmissing
    simp only [PackMalformed, htype, pubkeyFields, WrongLength, PackData.keys, if_pos, List.mem_cons,
      List.not_mem_nil, or_false, exists_eq_left, or_and_right, exists_or,
      if_neg (show ¬ "registerAddress" = "transfer" by decide),
      if_neg (show ¬ "registerAddress" = "creation" by decide), forall_const]
    rw [not_spells_given_iff hmissing.1, not_spells_given_iff hmissing.2]

theorem malformed_iff_of_draft (htype : request.params.str "transactionType" = transactionType)
    (h : draft p request transactionType = .ok d)
    (hmissing : d.data.missing request.params = false) :
    PackMalformed p request ↔ WrongLength d.data := by
  unfold draft at h
  split at h
  · rename_i htransfer
    exact transferMalformed_iff (htype.trans htransfer) h hmissing
  · split at h
    · rename_i hcreation
      exact creationMalformed_iff (htype.trans hcreation) h hmissing
    · split at h
      · rename_i hregister
        exact registerAddressMalformed_iff (htype.trans hregister) h hmissing
      · cases h

end Malformed

/-- A complete request without a missing key is malformed where a key has the wrong length. -/
theorem packMalformed_iff (h : submission p request = .ok s)
    (hmissing : s.data.missing request.params = false) :
    PackMalformed p request ↔ WrongLength s.data := by
  unfold submission at h
  cases hparam : readParameter p request with
  | error document =>
    rw [hparam] at h
    cases h
  | ok parameter =>
    rw [hparam] at h
    cases hdraft : draft p request parameter.1 with
    | error r =>
      simp only [hdraft] at h
      cases h
    | ok d =>
      simp only [hdraft] at h
      cases h
      exact malformed_iff_of_draft (transactionType_of_readParameter hparam) hdraft hmissing

/-- **Packing** rejects malformed hex exactly where no key of a complete request is missing, and the
library does not accept keys of another length than 32 bytes. -/
theorem rejects_pack_iff (halive : p.Alive) :
    Rejects (fun why => handle (p.strict request.params why) request) (PackMalformed p request)
        (handle p request) ↔
      ∀ s, submission p request = .ok s → s.data.missing request.params = false ∧
        (WrongLength s.data → ¬ PackAccepted p (request.params.str "memo") s) := by
  have hsame (why : String) : submission (p.strict request.params why) request =
      submission p request := rfl
  simp only [handle_eq, hsame]
  cases hsub : submission p request with
  | error r =>
    rw [rejects_iff_refused fun _ => rfl]
    exact iff_of_true (fun _ => refused_of_submission hsub) nofun
  | ok s =>
    simp only [packSubmission_strict, Except.ok.injEq, forall_eq']
    cases hmissing : s.data.missing request.params with
    | true =>
      exact iff_of_false (fun h => h.notHanded fun why => if_pos rfl) nofun
    | false =>
      rw [rejects_iff_refused fun _ => if_neg (by decide), packMalformed_iff hsub hmissing,
        refused_packSubmission_iff halive hmissing]
      exact (and_iff_right rfl).symm

end Pack

/-! ## Sending a transaction -/

section Send

open JsonSendTransactionIota

variable {τ : Type}

/-- Where no key and no signature is missing the library does not end the process. -/
structure TransactionLibrary.Alive (l : TransactionLibrary τ) : Prop where
  load : ∀ bytes why, l.load bytes ≠ .error (.crash why)
  addSign : ∀ transaction pubkey signature why,
    l.addSign transaction (some pubkey) (some signature) ≠ .error (.crash why)
  validate : ∀ transaction why, l.validate transaction ≠ .error (.crash why)

/-- The library that ends the process on a missing key or signature. -/
def TransactionLibrary.strict (l : TransactionLibrary τ) (why : String) : TransactionLibrary τ where
  __ := l
  addSign transaction
    | some pubkey, some signature => l.addSign transaction (some pubkey) (some signature)
    | _, _ => .error (.crash why)

/-- A key or a signature of a listed pair is not spelled. -/
def SendMalformed (l : TransactionLibrary τ) (request : SendRequest) : Prop :=
  ∃ pairs, request.signaturePairs = .array pairs ∧ ∃ it ∈ pairs,
    (∃ hex, it.getStringParameter "pubkey" = .ok hex ∧ ¬ Spells l.lib 32 hex) ∨
      ∃ hex, it.getStringParameter "signature" = .ok hex ∧ ¬ Spells l.lib 64 hex

/-- Every key and every signature that is handed to the library is there. -/
def AllHanded (l : TransactionLibrary τ) (pairs : List Params) (transaction : τ) : Prop :=
  ∀ last pubkeyBin signatureBin, Handed l pairs transaction last pubkeyBin signatureBin →
    pubkeyBin ≠ none ∧ signatureBin ≠ none

variable {l : TransactionLibrary τ} {request : SendRequest} {pairs : List Params} {transaction : τ}

/-- Where nothing is missing the loop runs as it does. -/
theorem addSigns_strict (why : String) (h : AllHanded l pairs transaction) :
    addSigns (l.strict why) pairs transaction = addSigns l pairs transaction := by
  induction pairs generalizing transaction with
  | nil => rfl
  | cons it rest ih =>
    rw [addSigns, addSigns]
    cases hpubkey : it.getStringParameter "pubkey" with
    | error d => rfl
    | ok pubkeyHexString =>
      cases hsignature : it.getStringParameter "signature" with
      | error d => rfl
      | ok signatureHexString =>
        obtain ⟨hk, hs⟩ := h _ _ _ (.here hpubkey hsignature)
        obtain ⟨pubkey, hpubkeyBin⟩ := Option.ne_none_iff_exists'.mp hk
        obtain ⟨signature, hsignatureBin⟩ := Option.ne_none_iff_exists'.mp hs
        simp only [TransactionLibrary.strict, hpubkeyBin, hsignatureBin]
        cases hadd : l.addSign transaction (some pubkey) (some signature) with
        | error e => rfl
        | ok added =>
          refine ih fun last k s hhanded => h last k s (.there hpubkey hsignature ?_ hhanded)
          rw [hpubkeyBin, hsignatureBin, hadd]

theorem strict_lib (l : TransactionLibrary τ) (why : String) : (l.strict why).lib = l.lib := rfl

theorem strict_addSign_missing (why : String) (transaction : τ) {pubkeyBin signatureBin : Option Bytes}
    (hmissing : ¬ (pubkeyBin ≠ none ∧ signatureBin ≠ none)) :
    (l.strict why).addSign transaction pubkeyBin signatureBin = .error (.crash why) := by
  match pubkeyBin, signatureBin, hmissing with
  | none, _, _ => rfl
  | some _, none, _ => rfl
  | some _, some _, h => exact absurd ⟨nofun, nofun⟩ h

/-- What is missing is handed to the library at the first such pair. -/
theorem addSigns_strict_missing (why : String) {last : τ} {pubkeyBin signatureBin : Option Bytes}
    (h : Handed l pairs transaction last pubkeyBin signatureBin)
    (hmissing : ¬ (pubkeyBin ≠ none ∧ signatureBin ≠ none)) :
    addSigns (l.strict why) pairs transaction = .error (.crash why) := by
  induction h with
  | here hpubkey hsignature =>
    rw [addSigns, hpubkey, hsignature]
    dsimp only
    rw [strict_lib, strict_addSign_missing why _ hmissing]
    rfl
  | @there it rest transaction added last pubkeyHexString signatureHexString _ _ hpubkey hsignature
      hadd _ ih =>
    rw [addSigns, hpubkey, hsignature]
    dsimp only
    by_cases hthis : l.lib.hexToBin pubkeyHexString ≠ none ∧ l.lib.hexToBin signatureHexString ≠ none
    · have hstrict : (l.strict why).addSign transaction (l.lib.hexToBin pubkeyHexString)
          (l.lib.hexToBin signatureHexString) = .ok added := by
        obtain ⟨pubkey, hpubkeyBin⟩ := Option.ne_none_iff_exists'.mp hthis.1
        obtain ⟨signature, hsignatureBin⟩ := Option.ne_none_iff_exists'.mp hthis.2
        rw [hpubkeyBin, hsignatureBin] at hadd ⊢
        exact hadd
      rw [strict_lib, hstrict]
      exact ih hmissing
    · rw [strict_lib, strict_addSign_missing why _ hthis]
      rfl

theorem handle_strict (why : String)
    (h : ∀ pairs transaction, Loads l request pairs transaction → AllHanded l pairs transaction) :
    handle (l.strict why) request = handle l request := by
  unfold handle
  cases hbody : request.params.getStringParameter "bodyBytesBase64" with
  | error d => rfl
  | ok body =>
    cases hpairs : request.signaturePairs with
    | missing => rfl
    | other => rfl
    | array pairs =>
      simp only [bind, Except.bind, TransactionLibrary.strict]
      cases hload : l.load (l.base64ToBinString body) with
      | error e => rfl
      | ok transaction =>
        have hall := h pairs transaction ⟨hpairs, body, hbody, hload⟩
        have hloop := addSigns_strict why hall
        simp only [TransactionLibrary.strict] at hloop
        dsimp only
        rw [hloop]
        rfl

/-- A request in which nothing missing is handed on is refused where it is not accepted. -/
theorem refused_handle_iff (halive : l.Alive)
    (h : ∀ pairs transaction, Loads l request pairs transaction → AllHanded l pairs transaction) :
    Refused (handle l request) ↔ ¬ Accepted l request := by
  rcases handle_cases l request with ⟨haccepted, hhandle⟩ | ⟨hnot, d, hd, hhandle⟩ |
    ⟨hnot, e, hthrows, hhandle⟩
  · rw [hhandle]
    refine iff_of_false (fun h => ?_) (not_not_intro haccepted)
    cases h
  · rw [hhandle]
    exact iff_of_true hd hnot
  · rw [hhandle]
    refine iff_of_true (fun why heq => ?_) hnot
    subst heq
    cases hthrows with
    | load he => exact halive.load _ why he
    | validate he => exact halive.validate _ why he
    | addSign hloads hhanded he =>
      obtain ⟨hk, hs⟩ := h _ _ hloads _ _ _ hhanded
      obtain ⟨pubkey, rfl⟩ := Option.ne_none_iff_exists'.mp hk
      obtain ⟨signature, rfl⟩ := Option.ne_none_iff_exists'.mp hs
      exact halive.addSign _ _ _ why he

/-- **Sending** rejects malformed hex exactly where no key and no signature is missing that is
handed to the library, and the library does not accept a listed one of another length. -/
theorem rejects_send_iff (halive : l.Alive) :
    Rejects (fun why => handle (l.strict why) request) (SendMalformed l request) (handle l request) ↔
      (∀ pairs transaction, Loads l request pairs transaction → AllHanded l pairs transaction) ∧
        (SendMalformed l request → ¬ Accepted l request) := by
  by_cases hall : ∀ pairs transaction, Loads l request pairs transaction → AllHanded l pairs transaction
  · rw [rejects_iff_refused fun why => handle_strict why hall, refused_handle_iff halive hall]
    exact (and_iff_right hall).symm
  · refine iff_of_false (fun h => h.notHanded fun why => ?_) fun h => hall h.1
    push Not at hall
    obtain ⟨pairs, transaction, hloads, hnot⟩ := hall
    rw [AllHanded] at hnot
    push Not at hnot
    obtain ⟨last, k, s, hhanded, hmissing⟩ := hnot
    have hloads' : Loads (l.strict why) request pairs transaction := ⟨hloads.pairs, hloads.load⟩
    dsimp only
    rw [handle_of_loads hloads', addSigns_strict_missing why hhanded fun h => h.2 (hmissing h.1)]
    rfl

end Send

/-- **Exactly when malformed hex is rejected.** Opening a connection: where the request has both
parameters, both are hex, the key is not too short, and one of another length does not verify.
Packing: where a complete request misses no key, and the library does not accept one of another
length than 32 bytes. Sending: where no key and no signature that is handed to the library is
missing, and it accepts none of another length. -/
theorem hexRejected_iff {τ : Type} {o : Opener} {p : Packer} {l : TransactionLibrary τ}
    (hopen : o.Alive) (hpack : p.Alive) (hsend : l.Alive) :
    (∀ request, Rejects (fun why => JsonOpenConnection.handleRequest (o.strict why) request)
        (OpenMalformed o request) (JsonOpenConnection.handleRequest o request) ↔
      (request.method = "POST" → request.params.str "community-key-A" ≠ "" →
        request.params.str "signature" ≠ "" →
        OpenSound o (request.params.str "community-key-A") (request.params.str "signature"))) ∧
    (∀ request, Rejects (fun why => JsonPackTransaction.handle (p.strict request.params why) request)
        (PackMalformed p request) (JsonPackTransaction.handle p request) ↔
      ∀ s, submission p request = .ok s → s.data.missing request.params = false ∧
        (WrongLength s.data → ¬ PackAccepted p (request.params.str "memo") s)) ∧
    (∀ request, Rejects (fun why => JsonSendTransactionIota.handle (l.strict why) request)
        (SendMalformed l request) (JsonSendTransactionIota.handle l request) ↔
      (∀ pairs transaction, JsonSendTransactionIota.Loads l request pairs transaction →
        AllHanded l pairs transaction) ∧
        (SendMalformed l request → ¬ JsonSendTransactionIota.Accepted l request)) :=
  ⟨fun _ => rejects_open_iff hopen, fun _ => rejects_pack_iff hpack, fun _ => rejects_send_iff hsend⟩

/-! ### A text that is no hex -/

/-- A signature is the key and the message. -/
def plainOpener : Opener where
  lib := plainLibrary
  cfg := plainConfig
  now := 0
  serverPubkey := List.replicate 32 1
  keyAt
    | some pubkey => .ok (pubkey.take 32)
    | none => .error (.crash "data()")
  keyAt_of_le _ _ := rfl
  verify key message
    | some signature => .ok (decide (signature = key ++ message))
    | none => .error (.crash "verify")

/-- A packer that looks at the size of the keys of a transfer, as the tests of packing expect it. -/
def checkingPacker : Packer where
  __ := plainPacker
  validate body :=
    if body.data.keys.all fun key => key.all fun pubkey => pubkey.length == 32 then .ok true
    else .error (.transactionValidationInvalidInputException "invalid size" "sender" "public key")

/-- Transactions as the lists of their signatures. -/
def plainTransactions : TransactionLibrary (List (Bytes × Bytes)) where
  lib := plainLibrary
  base64ToBinString := bytesOf
  load _ := .ok []
  addSign transaction
    | some pubkey, some signature => .ok (transaction ++ [(pubkey, signature)])
    | _, _ => .error (.crash "addSign")
  validate transaction :=
    if transaction.all fun pair => pair.1.length == 32 && pair.2.length == 64 then .ok ()
    else .error (.transactionValidationInvalidSignatureException "invalid signature")
  getSignCount transaction := transaction.length
  getMinSignatureCount _ := 1

theorem alive_plainOpener : plainOpener.Alive := nofun

theorem alive_checkingPacker : checkingPacker.Alive where
  create _ _ _ _ := nofun
  createLeg _ _ _ := nofun
  validate body why h := by
    simp only [checkingPacker] at h
    split at h <;> cases h
  bodyBytes _ _ := nofun

theorem alive_plainTransactions : plainTransactions.Alive where
  load _ _ := nofun
  addSign _ _ _ _ := nofun
  validate transaction why h := by
    simp only [plainTransactions] at h
    split at h <;> cases h

/-- A transfer with keys of one byte is refused. -/
theorem hexRejected_shortKeys :
    Rejects (fun why => JsonPackTransaction.handle
        (checkingPacker.strict (transferRequest "" "").params why) (transferRequest "" ""))
      (PackMalformed checkingPacker (transferRequest "" ""))
      (JsonPackTransaction.handle checkingPacker (transferRequest "" "")) := by
  refine ((hexRejected_iff alive_plainOpener alive_checkingPacker alive_plainTransactions).2.1
    (transferRequest "" "")).mpr ?_
  rintro s ⟨⟩
  refine ⟨by decide, fun _ haccepted => ?_⟩
  obtain ⟨-, legs, hlegs, hall⟩ := haccepted
  cases hlegs
  exact nomatch (hall _ List.mem_cons_self).1

/-- A request with this text for a key, one for each handler. -/
def openRequest (pubkey : String) : OpenRequest :=
  ⟨"POST", .ofMembers [("community-key-A", pubkey), ("signature", "aa")] []⟩

def creationRequest (pubkey : String) : PackRequest where
  params := .ofMembers [("transactionType", "creation"), ("created", "0"), ("amount", "1"),
    ("recipientPubkey", pubkey), ("targetDate", "0")] []
  coinGroupId := none

def sendRequest (pubkey : String) : SendRequest where
  params := .ofMembers [("bodyBytesBase64", "aa"), ("groupAlias", "gdd1")] []
  signaturePairs := .array [.ofMembers [("pubkey", pubkey), ("signature", "aa")] []]

/-- **A key that is no hex** is handed on by all three handlers, and the first reads one of
a single byte. -/
theorem missing_handed :
    HandsMissing (fun why => JsonOpenConnection.handleRequest (plainOpener.strict why)
      (openRequest "xy")) ∧
    HandsMissing (fun why => JsonOpenConnection.handleRequest (plainOpener.strict why)
      (openRequest "ab")) ∧
    HandsMissing (fun why => JsonPackTransaction.handle
      (checkingPacker.strict (creationRequest "xy").params why) (creationRequest "xy")) ∧
    HandsMissing (fun why => JsonSendTransactionIota.handle (plainTransactions.strict why)
      (sendRequest "xy")) ∧
    ¬ Rejects (fun why => JsonOpenConnection.handleRequest (plainOpener.strict why) (openRequest "xy"))
      (OpenMalformed plainOpener (openRequest "xy"))
      (JsonOpenConnection.handleRequest plainOpener (openRequest "xy")) :=
  ⟨fun _ => rfl, fun _ => rfl, fun _ => rfl, fun _ => rfl, fun h => h.notHanded fun _ => rfl⟩

end GradidoConnector
