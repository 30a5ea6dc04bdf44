import GradidoConnector.EffectTrace
import GradidoConnector.JsonPackTransaction

/-!
# The legs of a cross-group transaction, packed and sent

`/packTransaction` and the handlers of the transactions build the same two legs: the outbound leg of
the first group, with the other group in its body, and then the inbound leg of the other group, with
the first group in its body (`Mirror`).

A packed leg is shown with its group as a C string, so an alias that holds a zero character is cut
there and no longer the one in the opposite body (`label_cut`).

The decision to split is written differently. `JsonPackTransaction` asks for two aliases,
`JsonRegisterAddressTransaction` also for different ones, and `JsonTransferTransaction` compares the
alias of the recipient with the one of the session. So a transaction from a group to itself is
packed into two legs and sent as one (`packed_twice`).

Results:
* `packs_cases`: what a request is packed into.
* **`mirrored_iff`**: packed legs mirror each other exactly when no alias holds a zero character,
  and the legs that are sent always do.
* **`decidedAlike_iff`**: when packing and sending decide alike.
-/

namespace GradidoConnector

open GradidoConnector.Base GradidoConnector.Base.Act

open JsonTransaction JsonPackTransaction

variable {b : Backend}

/-! ## What a request is packed into -/

/-- The aliases that decide whether a request of this type crosses groups. -/
def groupAliases (params : Params) (transactionType : String) : String × String :=
  if transactionType = "transfer" then (params.str "senderGroupAlias", params.str "recipientGroupAlias")
  else if transactionType = "registerAddress" then
    (params.str "currentGroupAlias", params.str "newGroupAlias")
  else ("", "")

/-- The two packed legs. -/
def packedLegs (data : PackData) (groupAlias otherGroup : String) : List TransactionGroupAlias :=
  [⟨newBody data (.outbound otherGroup), groupAlias⟩, ⟨newBody data (.inbound groupAlias), otherGroup⟩]

section Packs

variable {p : Packer} {request : PackRequest} {transactionType : String} {mCreated : DateTime}
  {transactions : List TransactionGroupAlias}

theorem legsFor_cases {data : PackData} {groupAlias otherGroup : String}
    (h : legsFor p data groupAlias otherGroup = .ok transactions) :
    ((groupAlias ≠ "" ∧ otherGroup ≠ "") ∧ transactions = packedLegs data groupAlias otherGroup) ∨
      (¬ (groupAlias ≠ "" ∧ otherGroup ≠ "") ∧ transactions = [⟨newBody data .local, ""⟩]) := by
  have hgiven : (groupAlias.isEmpty = false ∧ otherGroup.isEmpty = false) ↔
      (groupAlias ≠ "" ∧ otherGroup ≠ "") := by
    simp only [← Bool.not_eq_true, String.isEmpty_iff, ne_eq]
  unfold legsFor at h
  by_cases hcross : groupAlias.isEmpty = false ∧ otherGroup.isEmpty = false
  · rw [if_pos hcross] at h
    obtain ⟨_, -, h⟩ := bind_eq_ok.mp h
    obtain ⟨_, -, h⟩ := bind_eq_ok.mp h
    exact Or.inl ⟨hgiven.mp hcross, (Except.ok.inj h).symm⟩
  · rw [if_neg hcross] at h
    exact Or.inr ⟨mt hgiven.mpr hcross, (Except.ok.inj h).symm⟩

theorem transfer_legs (h : transfer p request = .ok (.ok transactions)) :
    ∃ data, legsFor p data (request.params.str "senderGroupAlias")
      (request.params.str "recipientGroupAlias") = .ok transactions := by
  unfold transfer at h
  split at h
  · cases h
  · cases h
  · cases h
  · obtain ⟨coinGroupId, -, h⟩ := bind_eq_ok.mp h
    obtain ⟨_, -, h⟩ := bind_eq_ok.mp h
    obtain ⟨legs, hlegs, h⟩ := bind_eq_ok.mp h
    cases h
    exact ⟨_, hlegs⟩

theorem creation_legs (h : creation p request = .ok (.ok transactions)) :
    ∃ data, legsFor p data "" "" = .ok transactions := by
  unfold creation at h
  split at h
  · cases h
  · cases h
  · cases h
  · cases hdate : readTargetDate p _ with
    | error d =>
      rw [hdate] at h
      cases h
    | ok targetDate =>
      rw [hdate] at h
      obtain ⟨_, -, h⟩ := bind_eq_ok.mp h
      cases h
      exact ⟨_, rfl⟩

theorem registerAddress_legs (h : registerAddress p request = .ok (.ok transactions)) :
    ∃ data, legsFor p data (request.params.str "currentGroupAlias")
      (request.params.str "newGroupAlias") = .ok transactions := by
  unfold registerAddress at h
  dsimp only at h
  split at h
  · cases h
  · split at h
    · cases h
    · obtain ⟨_, -, h⟩ := bind_eq_ok.mp h
      obtain ⟨legs, hlegs, h⟩ := bind_eq_ok.mp h
      cases h
      exact ⟨_, hlegs⟩

/-- **What a request is packed into**: two legs when both of its aliases are given. -/
theorem packs_cases (h : Packs p request transactionType mCreated transactions) :
    ∃ data groupAlias otherGroup, (groupAlias, otherGroup) = groupAliases request.params transactionType ∧
      (((groupAlias ≠ "" ∧ otherGroup ≠ "") ∧ transactions = packedLegs data groupAlias otherGroup) ∨
        (¬ (groupAlias ≠ "" ∧ otherGroup ≠ "") ∧ transactions = [⟨newBody data .local, ""⟩])) := by
  have hlegs : ∃ data, legsFor p data (groupAliases request.params transactionType).1
      (groupAliases request.params transactionType).2 = .ok transactions := by
    have hpacked := h.2
    unfold transactionsOf at hpacked
    unfold groupAliases
    by_cases htransfer : transactionType = "transfer"
    · rw [if_pos htransfer] at hpacked ⊢
      exact transfer_legs hpacked
    · rw [if_neg htransfer] at hpacked ⊢
      by_cases hcreation : transactionType = "creation"
      · rw [if_pos hcreation] at hpacked
        rw [if_neg (by rw [hcreation]; decide)]
        exact creation_legs hpacked
      · rw [if_neg hcreation] at hpacked
        by_cases hregister : transactionType = "registerAddress"
        · rw [if_pos hregister] at hpacked ⊢
          exact registerAddress_legs hpacked
        · rw [if_neg hregister] at hpacked
          cases hpacked
  obtain ⟨data, hlegs⟩ := hlegs
  exact ⟨data, _, _, rfl, legsFor_cases hlegs⟩

end Packs

/-! ## Legs that mirror each other -/

/-- Each leg goes to the group that the other one names in its body, and the outbound one
is the first. -/
def Mirror (first second : Leg) : Prop :=
  ∃ groupAlias otherGroup, first = ⟨.outbound otherGroup, groupAlias⟩ ∧
    second = ⟨.inbound groupAlias, otherGroup⟩

/-- The member `groupAlias` of an entry. -/
def labelOf : Json → Option String
  | .obj members =>
    match members.lookup "groupAlias" with
    | some (.str label) => some label
    | _ => none
  | _ => none

theorem labelOf_entry {groupAlias : String} (base64 : String) (h : groupAlias ≠ "") :
    labelOf (entry groupAlias base64) = some (cString groupAlias) := by
  have hgiven : ¬ groupAlias.isEmpty = true := by rwa [String.isEmpty_iff]
  rw [entry, if_neg hgiven]
  rfl

/-- The legs of a packed request mirror each other, carry the same and are listed once each; where
one of them is not valid, nothing is. -/
structure PackMirrors (p : Packer) (request : PackRequest) (mCreated : DateTime)
    (first second : TransactionGroupAlias) : Prop where
  data : first.transaction.data = second.transaction.data
  mirror : ∃ label₁ label₂, (∀ base64, labelOf (entry first.groupAlias base64) = some label₁) ∧
    (∀ base64, labelOf (entry second.groupAlias base64) = some label₂) ∧
      Mirror ⟨first.transaction.crossGroup, label₁⟩ ⟨second.transaction.crossGroup, label₂⟩
  /-- Both are listed with the memo and the date of the request. -/
  listed : ∀ members, handle p request = .ok (.success members) →
    ∃ e₁ e₂, members = [("transactions", .arr [e₁, e₂])] ∧
      Lists p (request.params.str "memo") mCreated first e₁ ∧
      Lists p (request.params.str "memo") mCreated second e₂
  refused : ∀ it ∈ [first, second],
    p.validate (dated (request.params.str "memo") mCreated it.transaction) ≠ .ok true →
      ∀ members, handle p request ≠ .ok (.success members)

/-- Two legs of a plan mirror each other, and what a request publishes are the first legs of its
plan, with one memo, one date and one base transaction. -/
structure LegsMirror (w : World) (h : Handler) (request : Request) (this : JsonTransaction)
    (plan : Plan) (out : List Effect) : Prop where
  mirror : ∀ first second, plan.route.legs = [first, second] → Mirror first second
  legs : ∃ ids, LegsPublished w { this with mMemo := plan.memo } plan.data none plan.route.legs ids
    (published w out)
  prepared : published w out ≠ [] → ∃ lookups checks, h.Prepared w this request plan lookups checks

/-- The same of a request to a handler, with the trace it leaves. -/
def LiveMirrors (w : World) (h : Handler) (request : Request) (s : Server b) : Prop :=
  ∃ out, (exec (h.handle w request) s).2.trace = s.trace ++ out ∧
    match (exec (readSharedParameter w request) s).1 with
    | .ok (.ok this) => ∃ plan, LegsMirror w h request this plan out
    | _ => out = []

/-- **What is sent mirrors.** -/
theorem liveMirrors (w : World) (h : Handler) (request : Request) (s : Server b) :
    LiveMirrors w h request s := by
  obtain ⟨out, hafter, hout⟩ := h.emits_handle w request s
  refine ⟨out, hafter.trace, ?_⟩
  cases hshared : (exec (readSharedParameter w request) s).1 with
  | error e =>
    rw [hshared] at hout
    exact hout.1
  | ok shared =>
    rw [hshared] at hout
    cases shared with
    | error d => exact hout.1
    | ok this =>
      obtain ⟨plan, htrace⟩ := handlerTrace_spec hafter hout
      obtain ⟨ids, hjournal, -⟩ := htrace.legs
      refine ⟨plan, ?_, ⟨ids, hjournal.legs⟩, fun hne => ?_⟩
      · intro first second hlegs
        cases hroute : plan.route with
        | within groupAlias =>
          rw [hroute] at hlegs
          cases hlegs
        | across groupAlias otherGroup =>
          rw [hroute] at hlegs
          cases hlegs
          exact ⟨groupAlias, otherGroup, rfl, rfl⟩
      · obtain ⟨lookups, checks, rest, -, -, hprepared⟩ := htrace.checked hne
        exact ⟨lookups, checks, hprepared⟩

section Packed

variable {p : Packer} {request : PackRequest} {transactionType : String} {mCreated : DateTime}
  {first second : TransactionGroupAlias}

/-- Two packed legs are those of the two aliases of the request. -/
theorem packedLegs_of_packs (h : Packs p request transactionType mCreated [first, second]) :
    ∃ data groupAlias otherGroup, (groupAlias, otherGroup) = groupAliases request.params transactionType ∧
      groupAlias ≠ "" ∧ otherGroup ≠ "" ∧
      first = ⟨newBody data (.outbound otherGroup), groupAlias⟩ ∧
      second = ⟨newBody data (.inbound groupAlias), otherGroup⟩ := by
  obtain ⟨data, groupAlias, otherGroup, haliases, ⟨⟨hgroup, hother⟩, hlegs⟩ | ⟨-, hlegs⟩⟩ := packs_cases h
  · cases hlegs
    exact ⟨data, groupAlias, otherGroup, haliases, hgroup, hother, rfl, rfl⟩
  · cases hlegs

/-- A success document lists the transactions of the request. -/
theorem listed_of_packs {transactions : List TransactionGroupAlias} {members : List (String × Json)}
    (hpacks : Packs p request transactionType mCreated transactions)
    (h : handle p request = .ok (.success members)) :
    ∃ es, members = [("transactions", .arr es)] ∧
      List.Forall₂ (Lists p (request.params.str "memo") mCreated) transactions es := by
  obtain ⟨_, _, _, es, hpacks', hmembers, hlisted⟩ := of_success h
  obtain ⟨-, rfl, rfl⟩ := hpacks.unique hpacks'
  exact ⟨es, hmembers, hlisted⟩

/-- **Packed legs mirror each other exactly when no alias holds a zero character; sent
legs always do.** -/
theorem mirrored_iff (w : World) (h : Handler) (live : Request) (s : Server b)
    (hsplit : Packs p request transactionType mCreated [first, second]) :
    (PackMirrors p request mCreated first second ∧ LiveMirrors w h live s) ↔
      Char.ofNat 0 ∉ (groupAliases request.params transactionType).1.toList ∧
        Char.ofNat 0 ∉ (groupAliases request.params transactionType).2.toList := by
  rw [and_iff_left (liveMirrors w h live s)]
  obtain ⟨data, groupAlias, otherGroup, haliases, hgroup, hother, rfl, rfl⟩ :=
    packedLegs_of_packs hsplit
  rw [← haliases, ← cString_eq_self, ← cString_eq_self]
  constructor
  · rintro ⟨-, ⟨label₁, label₂, hlabel₁, hlabel₂, a, o, hfirst, hsecond⟩, -, -⟩
    have hshown := (labelOf_entry "" hgroup).symm.trans (hlabel₁ "")
    have hshown' := (labelOf_entry "" hother).symm.trans (hlabel₂ "")
    cases hshown
    cases hshown'
    obtain ⟨hout, hlabel⟩ := Leg.mk.inj hfirst
    obtain ⟨hin, hlabel'⟩ := Leg.mk.inj hsecond
    exact ⟨hlabel.trans (CrossGroup.inbound.inj hin).symm,
      hlabel'.trans (CrossGroup.outbound.inj hout).symm⟩
  · rintro ⟨hgroupShown, hotherShown⟩
    have hlisted : ∀ members, handle p request = .ok (.success members) →
        ∃ e₁ e₂, members = [("transactions", .arr [e₁, e₂])] ∧
          Lists p (request.params.str "memo") mCreated
            ⟨newBody data (.outbound otherGroup), groupAlias⟩ e₁ ∧
          Lists p (request.params.str "memo") mCreated
            ⟨newBody data (.inbound groupAlias), otherGroup⟩ e₂ := by
      intro members hmembers
      obtain ⟨es, rfl, hes⟩ := listed_of_packs hsplit hmembers
      rcases hes with _ | ⟨hfirst, _ | ⟨hsecond, _ | _⟩⟩
      exact ⟨_, _, rfl, hfirst, hsecond⟩
    refine ⟨rfl, ?_, hlisted, fun it hit hvalid members hmembers => ?_⟩
    · refine ⟨groupAlias, otherGroup, fun base64 => ?_, fun base64 => ?_, groupAlias, otherGroup, rfl,
        rfl⟩
      · exact (labelOf_entry base64 hgroup).trans (congrArg some hgroupShown)
      · exact (labelOf_entry base64 hother).trans (congrArg some hotherShown)
    · obtain ⟨e₁, e₂, -, hfirst, hsecond⟩ := hlisted members hmembers
      rcases List.mem_pair.mp hit with rfl | rfl
      · exact hvalid hfirst.1
      · exact hvalid hsecond.1

end Packed

/-! ### Two requests -/

/-- A packer in which nothing fails. -/
def plainPacker : Packer where
  lib := plainLibrary
  tzd := 0
  create _ := .ok ()
  createLeg _ _ := .ok ()
  validate _ := .ok true
  bodyBytes body := .ok (bytesOf body.memo)
  toJson _ := ""

/-- A transfer between these groups. -/
def transferRequest (senderGroupAlias recipientGroupAlias : String) : PackRequest where
  params := .ofMembers
    [("transactionType", "transfer"), ("created", "0"), ("senderPubkey", "aa"),
      ("recipientPubkey", "bb"), ("amount", "1"), ("senderGroupAlias", senderGroupAlias),
      ("recipientGroupAlias", recipientGroupAlias)] []
  coinGroupId := none

def transferData : PackData := .transfer (some [0xaa]) "1" "" (some [0xbb])

theorem mirrored_transfer :
    PackMirrors plainPacker (transferRequest "gdd1" "gdd2") 0
        ⟨newBody transferData (.outbound "gdd2"), "gdd1"⟩
        ⟨newBody transferData (.inbound "gdd1"), "gdd2"⟩ ∧
      LiveMirrors plainWorld .transfer (aliceRequest [("created", "0")] []) aliceServer := by
  have hsplit : Packs plainPacker (transferRequest "gdd1" "gdd2") "transfer" 0
      [⟨newBody transferData (.outbound "gdd2"), "gdd1"⟩,
        ⟨newBody transferData (.inbound "gdd1"), "gdd2"⟩] := ⟨by rfl, by rfl⟩
  exact (mirrored_iff plainWorld .transfer (aliceRequest [("created", "0")] []) aliceServer
    hsplit).mpr (by decide)

/-- The alias with a zero character is cut in the label of its leg, and whole in the body of the
other one. -/
theorem label_cut :
    Packs plainPacker (transferRequest "gdd1\x00" "gdd2") "transfer" 0
        [⟨newBody transferData (.outbound "gdd2"), "gdd1\x00"⟩,
          ⟨newBody transferData (.inbound "gdd1\x00"), "gdd2"⟩] ∧
      ¬ PackMirrors plainPacker (transferRequest "gdd1\x00" "gdd2") 0
        ⟨newBody transferData (.outbound "gdd2"), "gdd1\x00"⟩
        ⟨newBody transferData (.inbound "gdd1\x00"), "gdd2"⟩ := by
  refine ⟨⟨by rfl, by rfl⟩, fun hmirrors => ?_⟩
  obtain ⟨label, _, hlabel, -, a, o, hfirst, hsecond⟩ := hmirrors.mirror
  have hcut : labelOf (entry "gdd1\x00" "") = some "gdd1" := by rfl
  have hshown : label = "gdd1" := Option.some.inj ((hlabel "").symm.trans hcut)
  obtain ⟨-, ha⟩ := Leg.mk.inj hfirst
  obtain ⟨hin, -⟩ := Leg.mk.inj hsecond
  have hwhole : "gdd1\x00" = "gdd1" :=
    (CrossGroup.inbound.inj hin).trans (ha.symm.trans hshown)
  exact absurd hwhole (by decide)

/-! ## Local or across -/

/-- Both aliases are given and differ. -/
def Crosses (groupAlias otherGroup : String) : Prop :=
  groupAlias ≠ "" ∧ otherGroup ≠ "" ∧ groupAlias ≠ otherGroup

/-- The entries `es` of a packed request and the `legs` it is sent as are two for a transaction
across groups, and the one local transaction otherwise. -/
structure DecidedAlike (p : Packer) (es : List Json) (legs : List Leg)
    (groupAlias otherGroup : String) : Prop where
  alike : es.length = 2 ↔ legs.length = 2
  crosses : es.length = 2 ↔ Crosses groupAlias otherGroup
  otherwise : ¬ Crosses groupAlias otherGroup → ∃ body bodyBytes, body.crossGroup = .local ∧
    p.bodyBytes body = .ok bodyBytes ∧ es = [entry "" (p.lib.binToBase64 bodyBytes)]

/-- A request to pack and the plan of a request to the handler of the same transaction, between the
same two groups. -/
inductive Counterpart (request : PackRequest) (w : World) (plan : Plan) : Handler → String → String → Prop
  | transfer (this : JsonTransaction) (live : Request) (lookups checks : List Effect)
      (htype : request.params.getStringParameter "transactionType" = .ok "transfer")
      (hprepared : JsonTransferTransaction.Prepared w this live plan lookups checks)
      (hsender : this.mSession.mGroupAlias = request.params.str "senderGroupAlias")
      (hrecipient : live.params.str "recipientGroupAlias" = request.params.str "recipientGroupAlias") :
      Counterpart request w plan .transfer (request.params.str "senderGroupAlias")
        (request.params.str "recipientGroupAlias")
  | registerAddress (this : JsonTransaction) (live : Request) (lookups checks : List Effect)
      (htype : request.params.getStringParameter "transactionType" = .ok "registerAddress")
      (hprepared : JsonRegisterAddressTransaction.Prepared w this live plan lookups checks)
      (hcurrent : live.params.str "currentGroupAlias" = request.params.str "currentGroupAlias")
      (hnew : live.params.str "newGroupAlias" = request.params.str "newGroupAlias") :
      Counterpart request w plan .registerAddress (request.params.str "currentGroupAlias")
        (request.params.str "newGroupAlias")

/-- Where the handler and packing decide alike. -/
def DecidesAlike : Handler → String → String → Prop
  | .transfer, sender, recipient => recipient = "" ∨ (sender ≠ "" ∧ sender ≠ recipient)
  | .registerAddress, current, new => current = new → current = ""
  | .creation, _, _ => True

section Decided

variable {p : Packer} {request : PackRequest} {w : World} {plan : Plan} {h : Handler}
  {groupAlias otherGroup : String} {es : List Json}

/-- The aliases are those that packing looks at. -/
theorem Counterpart.groupAliases_eq {transactionType : String} {mCreated : DateTime}
    (hsame : Counterpart request w plan h groupAlias otherGroup)
    (hparam : readParameter p request = .ok (transactionType, mCreated)) :
    groupAliases request.params transactionType = (groupAlias, otherGroup) := by
  have htype : request.params.getStringParameter "transactionType" = .ok transactionType := by
    unfold readParameter at hparam
    split at hparam
    · cases hparam
    · rename_i type htype
      split at hparam
      · cases hparam
      · split at hparam
        · cases hparam
        · cases hparam
          exact htype
  cases hsame with
  | transfer _ _ _ _ htransfer =>
    rw [htransfer] at htype
    cases htype
    rfl
  | registerAddress _ _ _ _ hregister =>
    rw [hregister] at htype
    cases htype
    rfl

/-- What packing lists: two entries when both aliases are given, else the local transaction. -/
theorem packed_cases (hsame : Counterpart request w plan h groupAlias otherGroup)
    (hpacked : handle p request = .ok (.success [("transactions", .arr es)])) :
    ((groupAlias ≠ "" ∧ otherGroup ≠ "") ∧ es.length = 2) ∨
      (¬ (groupAlias ≠ "" ∧ otherGroup ≠ "") ∧ ∃ body bodyBytes, body.crossGroup = .local ∧
        p.bodyBytes body = .ok bodyBytes ∧ es = [entry "" (p.lib.binToBase64 bodyBytes)]) := by
  obtain ⟨transactionType, mCreated, transactions, es', hpacks, hes, hlisted⟩ := of_success hpacked
  cases hes
  obtain ⟨data, a, o, hao, hcases⟩ := packs_cases hpacks
  rw [hsame.groupAliases_eq hpacks.1] at hao
  cases hao
  rcases hcases with ⟨hgiven, rfl⟩ | ⟨hnone, rfl⟩
  · exact Or.inl ⟨hgiven, hlisted.length_eq.symm⟩
  · refine Or.inr ⟨hnone, ?_⟩
    rcases hlisted with _ | ⟨⟨-, bodyBytes, hbytes, rfl⟩, _ | _⟩
    exact ⟨_, bodyBytes, rfl, hbytes, rfl⟩

/-- Packing lists two entries exactly when both aliases are given. -/
theorem packed_two_iff (hsame : Counterpart request w plan h groupAlias otherGroup)
    (hpacked : handle p request = .ok (.success [("transactions", .arr es)])) :
    es.length = 2 ↔ groupAlias ≠ "" ∧ otherGroup ≠ "" := by
  rcases packed_cases hsame hpacked with ⟨hgiven, htwo⟩ | ⟨hnone, body, bodyBytes, -, -, rfl⟩
  · exact iff_of_true htwo hgiven
  · exact iff_of_false (by simp) hnone

/-- Where a handler sends two legs. -/
def SentAcross : Handler → String → String → Prop
  | .transfer, sender, recipient => recipient ≠ "" ∧ recipient ≠ sender
  | .registerAddress, current, new => Crosses current new
  | .creation, _, _ => False

/-- A handler sends two legs exactly there. -/
theorem sent_two_iff (hsame : Counterpart request w plan h groupAlias otherGroup) :
    plan.route.legs.length = 2 ↔ SentAcross h groupAlias otherGroup := by
  have hempty : ∀ s : String, s.isEmpty = false ↔ s ≠ "" := fun s => by
    rw [← Bool.not_eq_true, String.isEmpty_iff]
  cases hsame with
  | transfer this live lookups checks htype hprepared hsender hrecipient =>
    rw [← hsender, ← hrecipient]
    cases hprepared with | intro _ _ recipientGroup user keyPair _ _ _ _ _ hfound =>
    show (JsonTransferTransaction.route _ _).legs.length = 2 ↔ _
    unfold JsonTransferTransaction.route
    cases hfound with
    | own _ hown =>
      have hnone := String.isEmpty_iff.mp hown
      rw [if_neg fun hcross => hcross.2 rfl]
      exact iff_of_false (by simp [Route.legs, localLegs]) fun hsent => hsent.1 hnone
    | given group _ hgiven =>
      by_cases hcross : live.params.str "recipientGroupAlias" ≠ this.mSession.mGroupAlias
      · rw [if_pos ⟨hgiven, hcross⟩]
        exact iff_of_true rfl ⟨(hempty _).mp hgiven, hcross⟩
      · rw [if_neg fun hboth => hcross hboth.2]
        exact iff_of_false (by simp [Route.legs, localLegs]) fun hsent => hcross hsent.2
  | registerAddress this live lookups checks htype hprepared hcurrent hnew =>
    rw [← hcurrent, ← hnew]
    obtain ⟨addressTypeString, current, new, keyPair, -, -, rfl, rfl, -, -, -⟩ := hprepared
    show (if JsonRegisterAddressTransaction.Moving _ _ then Route.across _ _ else _).legs.length = 2 ↔ _
    by_cases hmoving : JsonRegisterAddressTransaction.Moving (live.params.str "currentGroupAlias")
        (live.params.str "newGroupAlias")
    · rw [if_pos hmoving]
      exact iff_of_true rfl ⟨(hempty _).mp hmoving.1, (hempty _).mp hmoving.2.1, hmoving.2.2⟩
    · rw [if_neg hmoving]
      exact iff_of_false (by simp [Route.legs, localLegs]) fun hsent => hmoving
        ⟨(hempty _).mpr hsent.1, (hempty _).mpr hsent.2.1, hsent.2.2⟩

/-- The condition compares the two decisions with each other and with the purpose. -/
theorem decidesAlike_iff (hsame : Counterpart request w plan h groupAlias otherGroup) :
    DecidesAlike h groupAlias otherGroup ↔
      ((groupAlias ≠ "" ∧ otherGroup ≠ "" ↔ SentAcross h groupAlias otherGroup) ∧
        (groupAlias ≠ "" ∧ otherGroup ≠ "" ↔ Crosses groupAlias otherGroup)) := by
  cases hsame with
  | transfer =>
    unfold DecidesAlike SentAcross Crosses
    grind
  | registerAddress =>
    unfold DecidesAlike SentAcross Crosses
    grind

/-- **Packing and sending decide alike** for a transfer when the recipient's group is not given or
the sender has another one, and for a registration unless one group is given twice. -/
theorem decidedAlike_iff (hsame : Counterpart request w plan h groupAlias otherGroup)
    (hpacked : handle p request = .ok (.success [("transactions", .arr es)])) :
    DecidedAlike p es plan.route.legs groupAlias otherGroup ↔ DecidesAlike h groupAlias otherGroup := by
  have htwo := packed_two_iff hsame hpacked
  have hsent := sent_two_iff hsame
  rw [decidesAlike_iff hsame]
  constructor
  · rintro ⟨halike, hcrosses, -⟩
    exact ⟨htwo.symm.trans (halike.trans hsent), htwo.symm.trans hcrosses⟩
  · rintro ⟨halike, hcrosses⟩
    refine ⟨htwo.trans (halike.trans hsent.symm), htwo.trans hcrosses, fun hlocal => ?_⟩
    rcases packed_cases hsame hpacked with ⟨hgiven, -⟩ | ⟨-, hone⟩
    · exact absurd (hcrosses.mp hgiven) hlocal
    · exact hone

end Decided

/-! ### A transfer to another group, and one within -/

/-- An archived transaction of a session in this group. -/
def archivedBy (groupAlias : String) : JsonTransaction where
  mMemo := ""
  mCreated := 0
  mApolloTransactionId := 0
  mApolloCreatedDecay := ""
  mApolloDecayStart := 0
  mArchiveTransaction := true
  mTransactionNr := 1
  mSession := ⟨groupAlias, 1, "10.0.0.1", none, some ⟨[1], [2]⟩⟩

/-- A transfer to `bob` in this group. -/
def transferToBob (recipientGroupAlias : String) : Request :=
  aliceRequest [("recipientName", "bob"), ("amount", "1"), ("recipientGroupAlias", recipientGroupAlias)] []

/-- Such a transfer is planned, and packed with the same aliases. -/
theorem counterpart_transfer (senderGroupAlias recipientGroupAlias : String)
    (hgiven : recipientGroupAlias.isEmpty = false) :
    ∃ plan, Counterpart (transferRequest senderGroupAlias recipientGroupAlias) plainWorld plan .transfer
      senderGroupAlias recipientGroupAlias ∧
        plan.route = JsonTransferTransaction.route senderGroupAlias recipientGroupAlias := by
  refine ⟨_, .transfer (archivedBy senderGroupAlias) (transferToBob recipientGroupAlias) _ [] (by rfl)
    (.intro "bob" "1" recipientGroupAlias ⟨1, "bob", 1, 0, [3], []⟩ ⟨[1], [2]⟩ _ [] (by rfl) (by rfl)
      rfl (.given ⟨1, "", recipientGroupAlias⟩ _ hgiven) (fun _ => rfl) fun hfalse => by cases hfalse)
    (by rfl) (by rfl), rfl⟩

/-- A transfer to another group is packed into two legs and sent as two. -/
theorem decidedAlike_across : ∃ plan es,
    handle plainPacker (transferRequest "gdd1" "gdd2") = .ok (.success [("transactions", .arr es)]) ∧
      Counterpart (transferRequest "gdd1" "gdd2") plainWorld plan .transfer "gdd1" "gdd2" ∧
      DecidedAlike plainPacker es plan.route.legs "gdd1" "gdd2" := by
  obtain ⟨plan, hsame, -⟩ := counterpart_transfer "gdd1" "gdd2" (by decide)
  have hpacked : handle plainPacker (transferRequest "gdd1" "gdd2") =
      .ok (.success [("transactions", .arr [entry "gdd1" "", entry "gdd2" ""])]) := by rfl
  exact ⟨plan, _, hpacked, hsame, (decidedAlike_iff hsame hpacked).mpr (Or.inr (by decide))⟩

/-- A transfer from a group to itself is packed into two legs and sent as one. -/
theorem packed_twice : ∃ plan es,
    handle plainPacker (transferRequest "gdd1" "gdd1") = .ok (.success [("transactions", .arr es)]) ∧
      Counterpart (transferRequest "gdd1" "gdd1") plainWorld plan .transfer "gdd1" "gdd1" ∧
      es.length = 2 ∧ plan.route.legs.length = 1 ∧
      ¬ DecidedAlike plainPacker es plan.route.legs "gdd1" "gdd1" := by
  obtain ⟨plan, hsame, hroute⟩ := counterpart_transfer "gdd1" "gdd1" (by decide)
  have hpacked : handle plainPacker (transferRequest "gdd1" "gdd1") =
      .ok (.success [("transactions", .arr [entry "gdd1" "", entry "gdd1" ""])]) := by rfl
  have hlegs : plan.route.legs.length = 1 := by
    rw [hroute]
    decide
  refine ⟨plan, _, hpacked, hsame, rfl, hlegs, fun halike => ?_⟩
  have htwo := halike.alike.mp rfl
  rw [hlegs] at htwo
  cases htwo

end GradidoConnector
