import GradidoConnector.Base.Base64
import GradidoConnector.BadTokens
import GradidoConnector.JsonTransferTransaction

/-!
# The memo of a transfer, listed

A transfer carries its memo encrypted from the sender to the recipient, as base64 text. When either
of them lists transactions, `JsonListTransactions::handle` decrypts a memo that looks like base64,
and puts the text into the document as a C string, so it ends at the first zero character. An empty
text is taken for a failure, and the encrypted memo stays.

`OpensBox` is what the way of a memo relies on: base64, and that either party opens the box with its
own private key and the other's public key. `Lists` says that a call asks the Gradido Node and finds
a transaction at some place of the answer.

Results:
* `base64RegExp_encodeChars`: every base64 text passes the guard of the list handler.
* `readMemo_of_opensBox`: what either party reads.
* **`memo_listed_iff`**: the listed memo is the one that was sent exactly when that is not empty and
  has no zero character.
-/

namespace GradidoConnector

open GradidoConnector.Base GradidoConnector.Base.Act

open JsonTransaction JsonListTransactions

variable {b : Backend}

/-! ## The guard -/

theorem isBase64Char_digit : ∀ n < 64, isBase64Char (Base64.digit n) = true := by decide

/-- **Every base64 text passes the guard.** -/
theorem base64RegExp_encodeChars (bin : Bytes) : base64RegExp (Base64.encodeChars bin) = true := by
  induction bin using Base64.encodeChars.induct with
  | case1 => rfl
  | case2 x =>
    have hx := x.toNat_lt
    simp [Base64.encodeChars, base64RegExp, isBase64Char_digit (x.toNat / 4) (by omega),
      isBase64Char_digit (x.toNat % 4 * 16) (by omega)]
  | case3 x y =>
    have hx := x.toNat_lt
    have hy := y.toNat_lt
    simp [Base64.encodeChars, base64RegExp, isBase64Char_digit (x.toNat / 4) (by omega),
      isBase64Char_digit (x.toNat % 4 * 16 + y.toNat / 16) (by omega),
      isBase64Char_digit (y.toNat % 16 * 4) (by omega)]
  | case4 x y z rest ih =>
    have hx := x.toNat_lt
    have hy := y.toNat_lt
    have hz := z.toNat_lt
    simp [Base64.encodeChars, base64RegExp, isBase64Char_digit (x.toNat / 4) (by omega),
      isBase64Char_digit (x.toNat % 4 * 16 + y.toNat / 16) (by omega),
      isBase64Char_digit (y.toNat % 16 * 4 + z.toNat / 64) (by omega),
      isBase64Char_digit (z.toNat % 64) (by omega), ih]

theorem isBase64_encode {bin : Bytes} (h : bin ≠ []) : isBase64 (Base64.encode bin) = true := by
  rw [isBase64, Base64.encode, String.toList_ofList, base64RegExp_encodeChars, Bool.and_true,
    Bool.not_eq_true', ← Bool.not_eq_true, String.isEmpty_iff]
  intro hempty
  exact Base64.encodeChars_ne_nil h (String.ofList_eq_empty_iff.mp hempty)

theorem cString_encode (bin : Bytes) : cString (Base64.encode bin) = Base64.encode bin := by
  rw [cString_eq_self, Base64.encode, String.toList_ofList]
  have hdigit : ∀ n < 64, Char.ofNat 0 ≠ Base64.digit n := by decide
  intro hmem
  rcases Base64.mem_encodeChars hmem with heq | ⟨n, hn, heq⟩
  · exact absurd heq (by decide)
  · exact hdigit n hn heq

/-! ## The way of a memo -/

/-- Base64 works, a box is not empty, and either party opens the one that holds `memo`. -/
structure OpensBox (lib : Library) (sender recipient : KeyPair) (memo : String) : Prop where
  binToBase64 : ∀ bin, lib.binToBase64 bin = Base64.encode bin
  base64ToBin : ∀ bin, lib.base64ToBin (Base64.encode bin) = some bin
  box : lib.encrypt (lib.skToCurve25519 sender.privateKey) (lib.pkToCurve25519 recipient.publicKey)
    memo ≠ []
  opensRecipient : lib.decrypt (lib.skToCurve25519 recipient.privateKey)
    (lib.pkToCurve25519 sender.publicKey)
    (lib.encrypt (lib.skToCurve25519 sender.privateKey)
      (lib.pkToCurve25519 recipient.publicKey) memo) = some memo
  opensSender : lib.decrypt (lib.skToCurve25519 sender.privateKey)
    (lib.pkToCurve25519 recipient.publicKey)
    (lib.encrypt (lib.skToCurve25519 sender.privateKey)
      (lib.pkToCurve25519 recipient.publicKey) memo) = some memo

/-- `reader` is one of the two parties, and `other` the other one. -/
def IsParty (sender recipient reader other : KeyPair) : Prop :=
  (reader = recipient ∧ other = sender) ∨ (reader = sender ∧ other = recipient)

section ReadMemo

variable {lib : Library} {sender recipient reader other : KeyPair} {memo pubkeyHex : String}

/-- **What either party reads**: the memo up to its first zero character, or nothing. -/
theorem readMemo_of_opensBox (h : OpensBox lib sender recipient memo)
    (hparty : IsParty sender recipient reader other)
    (hhex : lib.hexToBin pubkeyHex = some other.publicKey) :
    readMemo lib reader.privateKey pubkeyHex
        (cString (encryptMemo lib memo recipient.publicKey sender.privateKey)) =
      .ok (if memo.isEmpty then none else some (cString memo)) := by
  have hdecrypt : decryptMemo lib (encryptMemo lib memo recipient.publicKey sender.privateKey)
      other.publicKey reader.privateKey = .ok memo := by
    rw [decryptMemo, encryptMemo, h.binToBase64, h.base64ToBin]
    rcases hparty with ⟨rfl, rfl⟩ | ⟨rfl, rfl⟩
    · simp only [h.opensRecipient]
    · simp only [h.opensSender]
  have htext : cString (encryptMemo lib memo recipient.publicKey sender.privateKey) =
      encryptMemo lib memo recipient.publicKey sender.privateKey := by
    rw [encryptMemo, h.binToBase64, cString_encode]
  have hguard : isBase64 (encryptMemo lib memo recipient.publicKey sender.privateKey) = true := by
    rw [encryptMemo, h.binToBase64]
    exact isBase64_encode h.box
  rw [htext, readMemo, if_pos hguard, hhex]
  simp only [hdecrypt]
  rfl

end ReadMemo

/-- A call of the list handler for the session of `reader` asks the Gradido Node, and the answer has
`transaction` at the place `i`. -/
structure Lists (w : World) (s : Server b) (request : ListRequest) (reader : KeyPair) (i : Nat)
    (transaction : Json) : Prop where
  answered : ∃ session jsonAnswear given transactions,
    (exec (SessionManager.getSession w.cfg request.jwtToken request.clientIp) s.sessions).1 =
      .ok session ∧
    session.mUserKeyPair = some reader ∧
    w.request s.trace "listtransactions" (nodeParams w.lib request.params session reader) =
      .ok jsonAnswear ∧
    listOf jsonAnswear = .ok given ∧ transactionsOf given = some transactions ∧
    transactions[i]? = some transaction

/-- The memo at the place `i` of a success document. -/
def memoAt (members : List (String × Json)) (i : Nat) : Option Json := do
  let transactionList ← members.lookup "transactionList"
  let transactions ← transactionsOf transactionList
  memoOf (← transactions[i]?)

/-- **The listed memo is the one that was sent exactly when that is not empty and has no zero
character**, for either party. -/
theorem memo_listed_iff (w : World) (this : JsonTransaction) (transfer : Request)
    (sender recipient reader other : KeyPair) (user : User) (groupAlias amount : String)
    (huser : user.publicKey = recipient.publicKey)
    (hbox : OpensBox w.lib sender recipient this.mMemo)
    (hparty : IsParty sender recipient reader other) (s : Server b) (request : ListRequest) (i : Nat)
    (transaction : Json) (pubkeyHex : String) (hlists : Lists w s request reader i transaction)
    (hlisted : Listed transaction pubkeyHex
      (JsonTransferTransaction.plan w this transfer sender user groupAlias amount).memo)
    (hkey : pubkeyHex ≠ "") (hhex : w.lib.hexToBin pubkeyHex = some other.publicKey)
    (members : List (String × Json))
    (h : (exec (JsonListTransactions.handle w request) s).1 = .ok (.success members)) :
    memoAt members i = some (.str this.mMemo) ↔
      this.mMemo ≠ "" ∧ Char.ofNat 0 ∉ this.mMemo.toList := by
  obtain ⟨session, jsonAnswear, given, transactions, hsession, hreader, hanswer, hgiven,
    htransactions, hi⟩ := hlists.answered
  obtain ⟨session', keyPair, jsonAnswear', names, transactionList, hsession', hkeyPair, hanswer',
    henrich, rfl⟩ := of_success h
  obtain rfl : session' = session := Except.ok.inj (hsession'.symm.trans hsession)
  obtain rfl : keyPair = reader := Option.some.inj (hkeyPair.symm.trans hreader)
  obtain rfl : jsonAnswear' = jsonAnswear := Except.ok.inj (hanswer'.symm.trans hanswer)
  have hnonempty : pubkeyHex.isEmpty = false := by
    rw [← Bool.not_eq_true, String.isEmpty_iff]
    exact hkey
  obtain ⟨enriched, listed, clearMemo, hout, -, hat, hread, hmemo⟩ :=
    listed_memo hgiven htransactions hi hlisted hnonempty henrich
  have hplan : (JsonTransferTransaction.plan w this transfer sender user groupAlias amount).memo =
      encryptMemo w.lib this.mMemo recipient.publicKey sender.privateKey := by
    rw [← huser]
    rfl
  rw [hplan] at hread hmemo
  rw [readMemo_of_opensBox hbox hparty hhex] at hread
  have hmemoAt : memoAt [("transactionList", transactionList)] i = memoOf enriched := by
    simp only [memoAt, List.lookup_cons_self, hout, hat, Option.bind_eq_bind, Option.bind_some]
  rw [hmemoAt, hmemo, ← Except.ok.inj hread]
  by_cases hempty : this.mMemo.isEmpty = true
  · -- an empty text counts as a failure, and the encrypted memo stays
    rw [if_pos hempty]
    refine iff_of_false (fun heq => ?_) fun hboth => hboth.1 (String.isEmpty_iff.mp hempty)
    have hguard : isBase64 (encryptMemo w.lib this.mMemo recipient.publicKey sender.privateKey) =
        true := by
      rw [encryptMemo, hbox.binToBase64]
      exact isBase64_encode hbox.box
    have hsame : encryptMemo w.lib this.mMemo recipient.publicKey sender.privateKey = this.mMemo :=
      Json.str.inj (Option.some.inj heq)
    rw [hsame, String.isEmpty_iff.mp hempty] at hguard
    exact absurd hguard (by decide)
  · rw [if_neg hempty]
    have hne : this.mMemo ≠ "" := fun heq => hempty (String.isEmpty_iff.mpr heq)
    rw [Option.getD_some, Option.some.injEq, Json.str.injEq, cString_eq_self, and_iff_right hne]

/-! ## A memo on its way -/

/-- Real base64, and boxes that hold their text in the clear. -/
def boxLibrary : Library :=
  { plainLibrary with
    binToBase64 := Base64.encode
    base64ToBin := Base64.decode
    encrypt := fun _ _ memo => 1 :: bytesOf memo
    decrypt := fun _ _ bin => some (String.ofList (bin.tail.map fun c => Char.ofNat c.toNat)) }

/-- The key pairs of `alice` and of the recipient. -/
def aliceKeys : KeyPair := plainCrypto.ofPassphrase "passphrase"

def bobKeys : KeyPair := plainCrypto.ofPassphrase "bob"

/-- The user row of the recipient. -/
def bobUser : User := ⟨"bob", 1, 0, bobKeys.publicKey, []⟩

/-- A transfer request with a memo, its parameters read. -/
def memoTransfer (memo : String) : JsonTransaction :=
  ⟨memo, 0, 0, "", 0, false, 0, ⟨"gdd", 1, "10.0.0.1", none, some aliceKeys⟩⟩

/-- The world with this library. -/
def boxWorld : World := { plainWorld with lib := boxLibrary }

/-- What `alice` sends with a memo, as she finds it at the Gradido Node. -/
def sentTransaction (memo : String) : Json :=
  .obj [("linkedUser", .obj [("pubkey", .str (boxLibrary.binToHex bobKeys.publicKey))]),
    ("typeId", .str "SEND"),
    ("memo", .str (JsonTransferTransaction.plan boxWorld (memoTransfer memo) (aliceRequest [] [])
      aliceKeys bobUser "gdd" "1").memo)]

/-- The world in which the node lists that transaction. -/
def listingWorld (memo : String) : World :=
  { boxWorld with
    request := fun _ _ _ => .ok (.obj [("result", .obj [("transactionList",
      .obj [("transactions", .arr [sentTransaction memo])])])]) }

/-- The request of `alice` for her transactions. -/
def aliceLists : ListRequest := ⟨[], SessionManager.aliceToken, "10.0.0.1"⟩

/-- The call ends in a success document. -/
def aliceSucceeds (memo : String) : Bool :=
  match (exec (JsonListTransactions.handle (listingWorld memo) aliceLists) aliceServer).1 with
  | .ok document => document.isSuccess
  | .error _ => false

theorem exists_members_of_succeeds {memo : String} (h : aliceSucceeds memo = true) :
    ∃ members, (exec (JsonListTransactions.handle (listingWorld memo) aliceLists) aliceServer).1 =
      .ok (.success members) := by
  unfold aliceSucceeds at h
  split at h
  · rename_i document hd
    cases document with
    | success members => exact ⟨members, hd⟩
    | _ => cases h
  · cases h

theorem lists_alice (memo : String) :
    Lists (listingWorld memo) aliceServer aliceLists aliceKeys 0 (sentTransaction memo) := by
  have hsession : (exec (SessionManager.getSession plainConfig SessionManager.aliceToken "10.0.0.1")
      aliceServer.sessions).1 = .ok ⟨"gdd", 1, "10.0.0.1",
        some (plainCrypto.createKey "alice" "secret"), some aliceKeys⟩ := by decide
  exact ⟨⟨_, _, _, _, hsession, rfl, rfl, rfl, rfl, rfl⟩⟩

theorem listed_alice (memo : String) :
    Listed (sentTransaction memo) (boxLibrary.binToHex bobKeys.publicKey)
      (JsonTransferTransaction.plan boxWorld (memoTransfer memo) (aliceRequest [] []) aliceKeys
        bobUser "gdd" "1").memo := by
  have hnames : ["linkedUser", "typeId", "memo"].Nodup := by decide
  exact ⟨⟨_, rfl, hnames, rfl, _, rfl⟩, rfl⟩

theorem opensBox_alice {memo : String}
    (h : String.ofList ((bytesOf memo).map fun c => Char.ofNat c.toNat) = memo) :
    OpensBox boxLibrary aliceKeys bobKeys memo :=
  ⟨fun _ => rfl, Base64.decode_encode, List.cons_ne_nil _ _, congrArg some h, congrArg some h⟩

/-- `alice` reads what she sent. -/
theorem memo_listed_hello : ∃ members,
    (exec (JsonListTransactions.handle (listingWorld "hello") aliceLists) aliceServer).1 =
      .ok (.success members) ∧ memoAt members 0 = some (.str "hello") := by
  have hsucceeds : aliceSucceeds "hello" = true := by decide
  obtain ⟨members, h⟩ := exists_members_of_succeeds hsucceeds
  refine ⟨members, h, (memo_listed_iff (listingWorld "hello") (memoTransfer "hello")
    (aliceRequest [] []) aliceKeys bobKeys aliceKeys bobKeys bobUser "gdd" "1" rfl
    (opensBox_alice (by decide)) (Or.inr ⟨rfl, rfl⟩) aliceServer aliceLists 0
    (sentTransaction "hello") _ (lists_alice "hello") (listed_alice "hello") (by decide) (by decide)
    members h).mpr ⟨by decide, by decide⟩⟩

/-- The text of a JSON string. -/
def textOf : Json → Option String
  | .str s => some s
  | _ => none

/-- The memo in the success document `alice` gets. -/
def aliceReads (memo : String) : Option String :=
  match (exec (JsonListTransactions.handle (listingWorld memo) aliceLists) aliceServer).1 with
  | .ok (.success members) => (memoAt members 0).bind textOf
  | _ => none

/-- **An empty memo comes back as the encrypted text, and one with a zero character is
cut there.** -/
theorem memo_changed :
    aliceReads "" = some "AQ==" ∧ aliceReads "ab\x00cd" = some "ab" ∧
    OpensBox boxLibrary aliceKeys bobKeys "" ∧ OpensBox boxLibrary aliceKeys bobKeys "ab\x00cd" := by
  exact ⟨by decide, by decide, opensBox_alice (by decide), opensBox_alice (by decide)⟩

end GradidoConnector
