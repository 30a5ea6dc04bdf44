import Mathlib.Tactic.NormNum
import GradidoConnector.AmountLimits
import GradidoConnector.CrossGroup

/-!
# The dates of a request

`Poco::DateTimeParser::parse` gives the fields of a date as they are written and, apart from them,
the offset they are written with. The handlers drop the offset of `created`, so two strings for one
instant with different offsets are two dates. They drop that of `targetDate`, too, and call
`makeLocal` with the offset of the server, which moves a UTC date by it; the first or the last hours
of a month then belong to another month.

Results:
* **`sameCreated_iff`**: two strings for one instant set the same `mCreated` exactly if their
  offsets are equal.
* `emits_dated`: whatever a creation does, it does for one target date.
* **`onTarget_iff`**: the target date is that of the string exactly on servers in UTC.
-/

namespace GradidoConnector

open GradidoConnector.Base GradidoConnector.Base.Act

open JsonTransaction GradidoNodeRPC

variable {b : Backend}

/-! ## `created` -/

/-- Two strings for the same instant, with the fields and the offset of each. -/
structure SameInstant (lib : Library) (created created' : String) (wall wall' : DateTime)
    (tzd tzd' : Int) : Prop where
  parse : lib.parse created = .ok (wall, tzd)
  parse' : lib.parse created' = .ok (wall', tzd')
  same : wall - tzd * 1000000 = wall' - tzd' * 1000000

/-- The parameters differ in `created` alone. -/
structure DifferInCreated (params params' : Params) (created created' : String) : Prop where
  created : params.getStringParameter "created" = .ok created
  created' : params'.getStringParameter "created" = .ok created'
  strings : ∀ name, name ≠ "created" →
    params'.getStringParameter name = params.getStringParameter name
  numbers : params'.getUInt64Parameter = params.getUInt64Parameter

section Created

variable {lib : Library} {params params' : Params} {created created' : String} {wall wall' : DateTime}
  {tzd tzd' : Int}

/-- Dates moved to the same date by offsets are equal exactly if the offsets are. -/
theorem eq_iff_of_moved {x y : Int} (h : x - tzd * 1000000 = y - tzd' * 1000000) :
    y = x ↔ tzd = tzd' := by omega

theorem DifferInCreated.str (h : DifferInCreated params params' created created') {name : String}
    (hname : name ≠ "created") : params'.str name = params.str name := by
  unfold Params.str
  rw [h.strings name hname]

theorem DifferInCreated.uint64 (h : DifferInCreated params params' created created') (name : String) :
    params'.uint64 name = params.uint64 name := by
  unfold Params.uint64
  rw [h.numbers]

/-- What a request is packed into does not depend on `created`. -/
theorem DifferInCreated.transactionsOf (h : DifferInCreated params params' created created')
    (p : Packer) (coin : Option Json) (type : String) :
    JsonPackTransaction.transactionsOf p ⟨params', coin⟩ type =
      JsonPackTransaction.transactionsOf p ⟨params, coin⟩ type := by
  simp (disch := decide) only [JsonPackTransaction.transactionsOf, JsonPackTransaction.transfer,
    JsonPackTransaction.creation, JsonPackTransaction.registerAddress, h.strings, h.str,
    JsonPackTransaction.readCoinGroupId]

theorem DifferInCreated.readParameter (h : DifferInCreated params params' created created')
    (hsame : SameInstant lib created created' wall wall' tzd tzd') {p : Packer} (hlib : p.lib = lib)
    {coin : Option Json} {type : String} {mCreated : DateTime}
    (hread : JsonPackTransaction.readParameter p ⟨params, coin⟩ = .ok (type, mCreated)) :
    mCreated = wall ∧ JsonPackTransaction.readParameter p ⟨params', coin⟩ = .ok (type, wall') := by
  subst hlib
  unfold JsonPackTransaction.readParameter at hread ⊢
  simp only [h.created, h.created', hsame.parse, hsame.parse', h.strings "transactionType" (by decide)]
    at hread ⊢
  split at hread
  · cases hread
  · cases hread
    exact ⟨rfl, rfl⟩

/-- The dates of a request with the other string. -/
theorem DifferInCreated.readDates (h : DifferInCreated params params' created created')
    (hsame : SameInstant lib created created' wall wall' tzd tzd') {now : DateTime}
    {dates : DateTime × DateTime}
    (hread : JsonTransaction.readDates lib now created (params.str "apolloDecayStart") = .ok dates) :
    dates.1 = wall ∧
      JsonTransaction.readDates lib now created' (params'.str "apolloDecayStart") =
        .ok (wall', dates.2) := by
  rw [h.str (by decide)]
  unfold JsonTransaction.readDates at hread ⊢
  rw [hsame.parse] at hread
  rw [hsame.parse']
  dsimp only at hread ⊢
  split at hread
  · rename_i hempty
    cases hread
    rw [if_pos hempty]
    exact ⟨rfl, rfl⟩
  · rename_i hempty
    rw [if_neg hempty]
    split at hread
    · cases hread
    · cases hread
      exact ⟨rfl, rfl⟩

/-- **Two strings for one instant are one date exactly if their offsets are equal.** A request that
passes with one passes with the other, live or packed, and is the same but for what follows from the
date. -/
theorem sameCreated_iff (w : World) (request : Request) (s : Server b)
    (hdiffer : DifferInCreated request.params params' created created')
    (hsame : SameInstant w.lib created created' wall wall' tzd tzd') :
    (∀ this t, exec (readSharedParameter w request) s = (.ok (.ok this), t) →
      ∃ this', exec (readSharedParameter w { request with params := params' }) s =
          (.ok (.ok this'), t) ∧
        (this'.mCreated = this.mCreated ↔ tzd = tzd') ∧ (this' = this ↔ tzd = tzd')) ∧
    (∀ p coin type mCreated transactions, p.lib = w.lib →
      JsonPackTransaction.Packs p ⟨request.params, coin⟩ type mCreated transactions →
      ∃ mCreated', JsonPackTransaction.Packs p ⟨params', coin⟩ type mCreated' transactions ∧
        (mCreated' = mCreated ↔ tzd = tzd')) := by
  have hiff : wall' = wall ↔ tzd = tzd' := eq_iff_of_moved hsame.same
  constructor
  · intro this t hshared
    obtain ⟨_, dates, session, hcreated, hdates, hfound, rfl⟩ :=
      exec_readSharedParameter_eq_ok.mp hshared
    cases hdiffer.created.symm.trans hcreated
    obtain ⟨rfl, hdates'⟩ := hdiffer.readDates hsame hdates
    refine ⟨_, exec_readSharedParameter_eq_ok.mpr
      ⟨created', _, session, hdiffer.created', hdates', hfound, rfl⟩, hiff, fun heq => ?_, fun heq => ?_⟩
    · exact hiff.mp (congrArg JsonTransaction.mCreated heq)
    · obtain rfl := hiff.mpr heq
      simp (disch := decide) only [membersOf, hdiffer.str, hdiffer.uint64]
  · rintro p coin type mCreated transactions hlib ⟨hparam, hpacked⟩
    obtain ⟨rfl, hparam'⟩ := hdiffer.readParameter hsame hlib hparam
    exact ⟨wall', ⟨hparam', (hdiffer.transactionsOf p coin type).trans hpacked⟩, hiff⟩

end Created

/-! ### Midnight in UTC and one o'clock an hour to the east -/

/-- A world with dates of the Gregorian calendar and a server with this offset. -/
def datedWorld (tzd : Int) : World where
  __ := answeringWorld
  lib := datedLibrary
  tzd := tzd

theorem differInCreated_ofMembers (created created' : String) (strings : List (String × String))
    (numbers : List (String × Nat)) :
    DifferInCreated (.ofMembers (("created", created) :: strings) numbers)
      (.ofMembers (("created", created') :: strings) numbers) created created' where
  created := rfl
  created' := rfl
  strings name hname := by
    show Params.find _ name = Params.find _ name
    simp only [Params.find, List.lookup_cons, beq_false_of_ne hname]
  numbers := rfl

theorem sameInstant_midnight : SameInstant datedLibrary "2022-03-01T00:00:00Z"
    "2022-03-01T01:00:00+01:00" 1646092800000000 1646096400000000 0 3600 :=
  ⟨by rfl, by rfl, by decide⟩

/-- A request of `alice`, created at this time. -/
def createdAt (created : String) : Request := aliceRequest [("created", created)] []

theorem sameCreated_midnight : ∃ this this' t,
    exec (readSharedParameter (datedWorld 0) (createdAt "2022-03-01T00:00:00Z")) aliceServer =
      (.ok (.ok this), t) ∧
    exec (readSharedParameter (datedWorld 0) (createdAt "2022-03-01T01:00:00+01:00")) aliceServer =
      (.ok (.ok this'), t) ∧
    (this'.mCreated = this.mCreated ↔ (0 : Int) = 3600) := by
  obtain ⟨this', hshared', hiff, -⟩ := (sameCreated_iff (datedWorld 0) (createdAt "2022-03-01T00:00:00Z")
    aliceServer (differInCreated_ofMembers _ "2022-03-01T01:00:00+01:00" [] [])
    sameInstant_midnight).1 _ _ rfl
  exact ⟨_, this', _, rfl, hshared', hiff⟩

/-- The two are different dates. -/
theorem midnight_moved : ∃ this this' t t',
    exec (readSharedParameter (datedWorld 0) (createdAt "2022-03-01T00:00:00Z")) aliceServer =
      (.ok (.ok this), t) ∧
    exec (readSharedParameter (datedWorld 0) (createdAt "2022-03-01T01:00:00+01:00")) aliceServer =
      (.ok (.ok this'), t') ∧
    this.mCreated = 1646092800000000 ∧ this'.mCreated = 1646096400000000 :=
  ⟨_, _, _, _, by rfl, by rfl, by rfl, by rfl⟩

/-! ## `targetDate` -/

/-- An effect for this target date alone. -/
def DatedBy (lib : Library) (date : DateTime) : Effect → Prop
  | .create (.creation _ _ targetDate) _ => targetDate = date
  | .request method params _ => method = "getcreationsumformonth" → ∀ month year,
      ("month", Json.int month) ∈ params → ("year", Json.int year) ∈ params →
        month = lib.month date ∧ year = lib.year date
  | _ => True

section Target

variable {w : World} {request : Request} {this : JsonTransaction} {date : DateTime} {s : Server b}

theorem datedBy_of_sends {data : TransactionData} {parent : Option String} {legs : List Leg}
    {r : Except Exn String} {out : List Effect} (h : Sends w this data parent legs r out) :
    ∀ e ∈ out, DatedBy w.lib date e := by
  intro e he
  cases sendEffect_of_sends h e he with
  | decay h =>
    obtain ⟨_, _, -, rfl⟩ := h
    exact fun hmethod => absurd hmethod (by decide)
  | publish transaction groupAlias r h =>
    unfold Publishes at h
    dsimp only at h
    split at h
    · obtain ⟨_, rfl, -⟩ := h
      exact fun hmethod => absurd hmethod (by decide)
    · subst h
      trivial
  | push sent h =>
    subst h
    trivial

/-- The questions of a creation are asked for its target date. -/
theorem emits_checkNode_dated (recipientPublicKey : Bytes) (amountString : String) (date : DateTime) :
    Emits (Server.effects b)
      (JsonCreationTransaction.checkNode w this recipientPublicKey amountString date)
      (fun _ out => ∀ e ∈ out, DatedBy w.lib date e) s := by
  unfold JsonCreationTransaction.checkNode
  split
  · exact Emits.pure_all
  · refine Emits.bind_all (K := fun _ => True) ((emits_rpc w _ _ _ s).mono ?_) fun addressType t _ => ?_
    · rintro r out ⟨answer, rfl, -⟩
      refine ⟨trivial, fun e he => ?_⟩
      rw [List.mem_singleton.mp he]
      exact fun hmethod => absurd hmethod (by decide)
    · split
      · split <;> exact Emits.pure_all
      · refine Emits.bind_all (K := fun _ => True) ((emits_rpc w _ _ _ t).mono ?_)
          fun sumString u _ => ?_
        · rintro r out ⟨answer, rfl, -⟩
          refine ⟨trivial, fun e he => ?_⟩
          rw [List.mem_singleton.mp he]
          intro _ month year hmonth hyear
          simpa [creationSumParams] using And.intro hmonth hyear
        · split
          · exact Emits.throw_all
          · exact Emits.throw_all
          · split
            · exact Emits.throw_all
            · exact Emits.pure_all

/-- Once the recipient is known, a creation is asked for and made for its target date. -/
theorem emits_createFor_dated (keyPair : KeyPair) (user : User) (amountString : String)
    (date : DateTime) :
    Emits (Server.effects b) (JsonCreationTransaction.createFor w this keyPair user amountString date)
      (fun _ out => ∀ e ∈ out, DatedBy w.lib date e) s := by
  refine Emits.tryCatch_all (Emits.bind_all (K := fun _ => True)
    ((emits_checkNode_dated user.publicKey amountString date).mono fun _ _ h => ⟨trivial, h⟩) ?_)
    fun _ _ => Emits.answer_all
  rintro (d | ⟨⟩) t -
  · exact Emits.pure_all
  · refine Emits.tryCatch_all ((emits_createAndSend w this
      (JsonCreationTransaction.plan w this keyPair user amountString date) t).mono ?_)
      fun _ _ => Emits.answer_all
    rintro r out ⟨answer, hstarts, -⟩ e he
    cases hstarts with
    | notCreated e' =>
      rw [List.mem_singleton.mp he]
      exact rfl
    | created _ rest hsends =>
      rcases List.mem_cons.mp he with rfl | he
      · exact rfl
      · exact datedBy_of_sends hsends e he

/-- **Whatever a creation does, it does for one target date.** -/
theorem emits_dated {targetDateString : String}
    (hdate : request.params.getStringParameter "targetDate" = .ok targetDateString)
    (htarget : JsonCreationTransaction.readTargetDate w targetDateString = .ok date) :
    Emits (Server.effects b) (JsonCreationTransaction.handle w request)
      (fun _ out => ∀ e ∈ out, DatedBy w.lib date e) s := by
  unfold JsonCreationTransaction.handle withSharedParameter
  refine Emits.bind_all (K := fun _ => True) ((emits_readSharedParameter w request s).mono ?_) ?_
  · rintro r out ⟨rfl, -⟩
    exact ⟨trivial, fun _ he => absurd he List.not_mem_nil⟩
  rintro (d | this) t -
  · exact Emits.pure_all
  dsimp only
  rw [hdate]
  cases request.params.getStringParameter "recipientName" with
  | error d => exact Emits.pure_all
  | ok recipientName =>
  cases request.params.getStringParameter "amount" with
  | error d => exact Emits.pure_all
  | ok amountString =>
  dsimp only
  rw [htarget]
  refine Emits.bind_all (K := fun _ => True)
    ((w.emits_loadUser recipientName this.mSession.mGroupId t).mono ?_) fun user u _ => ?_
  · rintro r out ⟨rfl, -⟩
    exact ⟨trivial, fun e he => List.mem_singleton.mp he ▸ trivial⟩
  · cases this.mSession.mUserKeyPair with
    | none => exact Emits.throw_all
    | some keyPair => exact emits_createFor_dated keyPair user.val amountString date

variable {lib : Library} {params : Params} {tzd tzd' : Int}

/-- A creation with these parameters is made for `date`, live or packed, on a server
with this offset. -/
inductive Books (lib : Library) (tzd : Int) (params : Params) : DateTime → Prop
  | live {b : Backend} (w : World) (request : Request) (s : Server b) (out : List Effect)
      (recipient : Bytes) (amount : String) (date : DateTime) (answer : Except Exn Unit)
      (hlib : w.lib = lib) (htzd : w.tzd = tzd) (hparams : request.params = params)
      (htrace : (exec (JsonCreationTransaction.handle w request) s).2.trace = s.trace ++ out)
      (hcreate : Effect.create (.creation recipient amount date) answer ∈ out) :
      Books lib tzd params date
  | packed (p : Packer) (coin : Option Json) (mCreated : DateTime)
      (transactions : List TransactionGroupAlias) (it : TransactionGroupAlias)
      (recipient : Option Bytes) (amount : String) (date : DateTime) (hlib : p.lib = lib)
      (htzd : p.tzd = tzd)
      (hpacks : JsonPackTransaction.Packs p ⟨params, coin⟩ "creation" mCreated transactions)
      (hit : it ∈ transactions) (hdata : it.transaction.data = .creation recipient amount date) :
      Books lib tzd params date

/-- A creation with these parameters asks for the sum of this month, on a server with
this offset. -/
inductive Asks (lib : Library) (tzd : Int) (params : Params) (month year : Int) : Prop
  | intro {b : Backend} (w : World) (request : Request) (s : Server b) (out : List Effect)
      (asked : List (String × Json)) (answer : Except Exn Json)
      (hlib : w.lib = lib) (htzd : w.tzd = tzd) (hparams : request.params = params)
      (htrace : (exec (JsonCreationTransaction.handle w request) s).2.trace = s.trace ++ out)
      (hask : Effect.request "getcreationsumformonth" asked answer ∈ out)
      (hmonth : ("month", Json.int month) ∈ asked) (hyear : ("year", Json.int year) ∈ asked)

/-- The month of one date is the month of the other. -/
def SameMonth (lib : Library) (date date' : DateTime) : Prop :=
  lib.month date = lib.month date' ∧ lib.year date = lib.year date'

variable {targetDateString : String} {offset : Int}

section Moved

variable (hdate : params.getStringParameter "targetDate" = .ok targetDateString)
  (hparse : lib.parse targetDateString = .ok (date, offset))
include hdate hparse

/-- The date of a live creation is that of the string, moved by the offset of the server. -/
theorem datedBy_of_handle {w : World} (hlib : w.lib = lib) (htzd : w.tzd = tzd)
    (hparams : request.params = params) {out : List Effect}
    (htrace : (exec (JsonCreationTransaction.handle w request) s).2.trace = s.trace ++ out) :
    ∀ e ∈ out, DatedBy lib (date + tzd * 1000000) e := by
  subst hlib htzd hparams
  have htarget : JsonCreationTransaction.readTargetDate w targetDateString =
      .ok (date + w.tzd * 1000000) := by
    rw [JsonCreationTransaction.readTargetDate, hparse]
  obtain ⟨out', hafter, hdated⟩ := emits_dated (s := s) hdate htarget
  rwa [List.append_cancel_left (htrace.symm.trans hafter.trace)]

/-- **A creation is made for the date of the string, moved by the offset of the server.** -/
theorem Books.eq {booked : DateTime} (h : Books lib tzd params booked) :
    booked = date + tzd * 1000000 := by
  cases h with
  | live w request s out recipient amount _ answer hlib htzd hparams htrace hcreate =>
    exact datedBy_of_handle hdate hparse hlib htzd hparams htrace _ hcreate
  | packed p coin mCreated transactions it recipient amount _ hlib htzd hpacks hit hdata =>
    subst hlib htzd
    have hpacked : JsonPackTransaction.creation p ⟨params, coin⟩ = .ok (.ok transactions) := hpacks.2
    unfold JsonPackTransaction.creation at hpacked
    dsimp only at hpacked
    rw [hdate] at hpacked
    cases hname : params.getStringParameter "recipientPubkey" with
    | error d =>
      rw [hname] at hpacked
      cases hpacked
    | ok recipientPubkey =>
    cases hamount : params.getStringParameter "amount" with
    | error d =>
      rw [hname, hamount] at hpacked
      cases hpacked
    | ok amountString =>
    rw [hname, hamount] at hpacked
    simp only [JsonPackTransaction.readTargetDate, hparse] at hpacked
    obtain ⟨_, -, hpacked⟩ := bind_eq_ok.mp hpacked
    cases hpacked
    rw [List.mem_singleton.mp hit] at hdata
    cases hdata
    rfl

/-- **It asks for the month of that date.** -/
theorem Asks.eq {month year : Int} (h : Asks lib tzd params month year) :
    month = lib.month (date + tzd * 1000000) ∧ year = lib.year (date + tzd * 1000000) := by
  obtain ⟨w, request, s, out, asked, answer, hlib, htzd, hparams, htrace, hask, hmonth, hyear⟩ := h
  exact datedBy_of_handle hdate hparse hlib htzd hparams htrace _ hask rfl month year hmonth hyear

end Moved

/-- On a server with this offset, whatever month a creation asks for is that of `date`. -/
def AsksFor (lib : Library) (tzd : Int) (params : Params) (date : DateTime) : Prop :=
  ∀ month year, Asks lib tzd params month year → month = lib.month date ∧ year = lib.year date

/-- **The target date is that of the string exactly on servers in UTC.** For a date in UTC and two
servers on which it is booked: the booked dates and the months asked for are those of the string
exactly if both offsets are zero. What is asked for is always the month that is booked, and it is
that of the string as long as the offset stays within the month. -/
theorem onTarget_iff {booked booked' : DateTime}
    (hdate : params.getStringParameter "targetDate" = .ok targetDateString)
    (hparse : lib.parse targetDateString = .ok (date, 0))
    (hbooks : Books lib tzd params booked) (hbooks' : Books lib tzd' params booked') :
    ((booked = date ∧ booked' = date ∧ AsksFor lib tzd params date ∧ AsksFor lib tzd' params date) ↔
      tzd = 0 ∧ tzd' = 0) ∧
    (booked = booked' ↔ tzd = tzd') ∧ AsksFor lib tzd params booked ∧
    ∀ month year, Asks lib tzd params month year →
      ((month = lib.month date ∧ year = lib.year date) ↔
        SameMonth lib (date + tzd * 1000000) date) := by
  have hbooked := hbooks.eq hdate hparse
  have hbooked' := hbooks'.eq hdate hparse
  have hasks : ∀ {tzd month year}, Asks lib tzd params month year →
      month = lib.month (date + tzd * 1000000) ∧ year = lib.year (date + tzd * 1000000) :=
    fun h => h.eq hdate hparse
  have hmoved : ∀ d x y : Int, d + x * 1000000 = d + y * 1000000 ↔ x = y := by omega
  have hzero : ∀ d x : Int, d + x * 1000000 = d ↔ x = 0 := by omega
  subst hbooked hbooked'
  refine ⟨⟨fun h => ⟨(hzero date tzd).mp h.1, (hzero date tzd').mp h.2.1⟩, ?_⟩, hmoved date tzd tzd',
    fun _ _ h => hasks h, fun month year h => ?_⟩
  · rintro ⟨rfl, rfl⟩
    have hsame : date + 0 * 1000000 = date := (hzero date 0).mpr rfl
    have hall : AsksFor lib 0 params date := fun month year h => by
      have hmonth := hasks h
      rwa [hsame] at hmonth
    exact ⟨hsame, hsame, hall, hall⟩
  · obtain ⟨rfl, rfl⟩ := hasks h
    exact Iff.rfl

end Target

/-! ### The last half hour of February -/

/-- A creation for `alice`, live or packed, that is booked to February. -/
def februaryParams : Params :=
  .ofMembers [("created", "2022-02-01T00:00:00Z"), ("recipientName", "alice"), ("amount", "1"),
    ("targetDate", "2022-02-28T23:30:00Z"), ("transactionType", "creation"), ("recipientPubkey", "aa")]
    []

theorem february_parsed : datedLibrary.parse "2022-02-28T23:30:00Z" = .ok (1646091000000000, 0) := by
  rfl

def februaryRequest : Request := ⟨februaryParams, SessionManager.aliceToken, "10.0.0.1"⟩

/-- A creation whose questions pass is booked, and has asked for its month. -/
theorem books_of_reaches {w : World} {request : Request} {s t t' : Server b} {this : JsonTransaction}
    {keyPair : KeyPair} {user : User} {amountString : String} {date : DateTime}
    (hreach : Reaches w request s (.creation this keyPair user amountString date) t)
    (hlive : this.mArchiveTransaction = false)
    (hpass : exec (JsonCreationTransaction.checkNode w this user.publicKey amountString date) t =
      (.ok (.ok ()), t')) :
    Books w.lib w.tzd request.params date ∧
      Asks w.lib w.tzd request.params (w.lib.month date) (w.lib.year date) := by
  obtain ⟨found, asked, sent, -, -, hasked, hsent, htrace⟩ := hreach.trace
  obtain ⟨asked', hafter, hcheck⟩ :=
    @JsonCreationTransaction.emits_checkNode _ w this t user.publicKey amountString date
  obtain rfl : asked' = asked := List.append_cancel_left (hafter.trace.symm.trans hasked)
  simp only [Arrival.check, hpass] at hsent
  obtain ⟨answer, hstarts⟩ := hsent
  have hcreate : ∃ made, Effect.create (.creation user.publicKey amountString date) made ∈ sent := by
    cases hstarts with
    | notCreated e => exact ⟨_, List.mem_cons_self⟩
    | created r rest hsends => exact ⟨_, List.mem_cons_self⟩
  obtain ⟨made, hmade⟩ := hcreate
  refine ⟨.live w request s _ _ _ _ made rfl rfl rfl htrace (List.mem_append_right _ hmade), ?_⟩
  rw [hpass] at hcheck
  obtain ⟨typeAnswer, sumAnswer, -⟩ := hcheck.passed rfl hlive
  exact .intro w request s _ _ sumAnswer rfl rfl rfl htrace
    (List.mem_append_left _ (List.mem_append_right _ (List.mem_cons_of_mem _ List.mem_cons_self)))
    (by simp [creationSumParams]) (by simp [creationSumParams])

/-- A server with this offset books it to the moved date and asks for that month. -/
theorem books_february (tzd : Int) :
    Books datedLibrary tzd februaryParams (1646091000000000 + tzd * 1000000) ∧
      Asks datedLibrary tzd februaryParams
        (datedLibrary.month (1646091000000000 + tzd * 1000000))
        (datedLibrary.year (1646091000000000 + tzd * 1000000)) := by
  have hreach : ∃ this keyPair user t, Reaches (datedWorld tzd) februaryRequest aliceServer
      (.creation this keyPair user "1" (1646091000000000 + tzd * 1000000)) t ∧
      this.mArchiveTransaction = false ∧ Operands (datedWorld tzd) februaryRequest t
        (.creation this keyPair user "1" (1646091000000000 + tzd * 1000000)) (.num 0) (.num 1) :=
    ⟨_, _, _, _, .creation _ _ _ "alice" "1" "2022-02-28T23:30:00Z" _ _ _ (by rfl) (by rfl) (by rfl)
      (by rfl) (by rfl) (by rfl) (by rfl), by rfl,
      .creation _ _ _ _ _ _ _ _ _ _ (by rfl) (by rfl) (by rfl) (by rfl)⟩
  obtain ⟨this, keyPair, user, t, hreach, hlive, hoperands⟩ := hreach
  have hpass : Passes .creation (.num 0) (.num 1) :=
    (Mpfr.cmp_ne_gt_iff (by simp [Mpfr.add]) (by simp)).mpr
      (by norm_num : (0 : Rat) + 1 ≤ 1000)
  obtain ⟨t', hcheck⟩ := check_of_passes (by exact hlive) hoperands hpass
  exact books_of_reaches hreach hlive hcheck

/-- A packer in UTC books it to February. -/
theorem books_packed : Books datedLibrary 0 februaryParams 1646091000000000 :=
  .packed { plainPacker with lib := datedLibrary } none 1643673600000000 _ _ (some [0xaa]) "1" _ rfl rfl
    ⟨by rfl, by rfl⟩ List.mem_cons_self rfl

/-- In UTC the month of the string is asked for. -/
theorem onTarget_utc : AsksFor datedLibrary 0 februaryParams 1646091000000000 :=
  ((onTarget_iff (by rfl) february_parsed books_packed books_packed).1.mpr ⟨rfl, rfl⟩).2.2.1

/-- A server an hour to the east books it to March and asks for the limit of March. -/
theorem february_in_march :
    februaryParams.getStringParameter "targetDate" = .ok "2022-02-28T23:30:00Z" ∧
    datedLibrary.parse "2022-02-28T23:30:00Z" = .ok (1646091000000000, 0) ∧
    datedLibrary.month 1646091000000000 = 2 ∧
    Books datedLibrary 3600 februaryParams (1646091000000000 + 3600 * 1000000) ∧
    Asks datedLibrary 3600 februaryParams 3 2022 :=
  ⟨by rfl, february_parsed, by decide, books_february 3600⟩

end GradidoConnector
