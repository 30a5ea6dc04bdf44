import GradidoConnector.Phases

/-!
# Which requests are archived

`readSharedParameter` means to treat a transaction as archived when it has a number and is "older
than 1 h". It compares the seconds with `60 * 60 * 60`, which are sixty hours, and
`Timespan::totalSeconds` cuts them to 32 bits, so an age of many years may count as any other.
The flag decides whether a handler asks its questions and where its messages go.

Results:
* `totalSeconds_gt_iff`: the ages that the comparison accepts (`InWindow`).
* `handledArchived_iff`, `handledLive_iff`: the flag decides how a request is handled.
* **`classified_iff`**: the requests that are handled as the comment says (`Judged`).
* `judged_iff`: within 68 years, all but those between one and sixty hours old.
-/

namespace GradidoConnector

open GradidoConnector.Base GradidoConnector.Base.Act

open JsonTransaction GradidoNodeRPC

variable {b : Backend}

/-! ## The comparison -/

/-- `created` lies more than an hour before `now`. -/
def OlderThanHour (now created : DateTime) : Prop := now - created > 3600 * 1000000

instance (now created : DateTime) : Decidable (OlderThanHour now created) :=
  inferInstanceAs (Decidable (_ > _))

/-- The whole seconds of the age, cut to a 32 bit `int`, are more than `60 * 60 * 60`. -/
def InWindow (age : Int) : Prop :=
  ∃ k : Int, 216000 < age.tdiv 1000000 - k * 2 ^ 32 ∧ age.tdiv 1000000 - k * 2 ^ 32 < 2 ^ 31

theorem totalSeconds_gt_iff {age : Int} : totalSeconds age > 60 * 60 * 60 ↔ InWindow age := by
  unfold totalSeconds InWindow
  generalize age.tdiv 1000000 = seconds
  constructor
  · intro h
    have hlt : seconds.bmod (2 ^ 32) < 2 ^ 31 := Int.bmod_lt (by decide)
    have hsplit : seconds.bmod (2 ^ 32) = seconds - seconds.bdiv (2 ^ 32) * 2 ^ 32 :=
      Int.bmod_eq_self_sub_bdiv_mul ..
    exact ⟨seconds.bdiv (2 ^ 32), by omega, by omega⟩
  · rintro ⟨k, hgt, hlt⟩
    have hbmod : seconds.bmod (2 ^ 32) = seconds - k * 2 ^ 32 := by
      rw [Int.bmod_eq_iff (by decide)]
      omega
    omega

instance (age : Int) : Decidable (InWindow age) := decidable_of_iff _ totalSeconds_gt_iff

/-- The transaction has a number and is older than an hour. -/
def Archived (now created : DateTime) (transactionNr : Nat) : Prop :=
  transactionNr ≠ 0 ∧ OlderThanHour now created

instance (now created : DateTime) (transactionNr : Nat) :
    Decidable (Archived now created transactionNr) :=
  inferInstanceAs (Decidable (_ ∧ _))

/-- The request has no number, or its age is more than an hour exactly if the comparison says so. -/
def Judged (now created : DateTime) (transactionNr : Nat) : Prop :=
  transactionNr = 0 ∨ (OlderThanHour now created ↔ InWindow (now - created))

instance (now created : DateTime) (transactionNr : Nat) :
    Decidable (Judged now created transactionNr) :=
  inferInstanceAs (Decidable (_ ∨ _))

theorem isArchive_iff {now created : DateTime} {transactionNr : Nat} :
    isArchive now created transactionNr = true ↔
      transactionNr ≠ 0 ∧ InWindow (now - created) := by
  rw [isArchive, Bool.and_eq_true, decide_eq_true_iff, totalSeconds_gt_iff, bne_iff_ne, and_comm]

/-- **The flag is right exactly where the request is judged.** -/
theorem judged_iff_isArchive {now created : DateTime} {transactionNr : Nat} :
    (isArchive now created transactionNr = true ↔ Archived now created transactionNr) ↔
      Judged now created transactionNr := by
  rw [isArchive_iff, Archived, Judged]
  by_cases hnr : transactionNr = 0
  · simp [hnr]
  · simp only [ne_eq, hnr, not_false_eq_true, true_and, false_or]
    exact iff_comm

/-- Within 68 years the comparison means sixty hours. -/
theorem inWindow_iff {age : Int} (hage : |age| < 2 ^ 31 * 1000000) :
    InWindow age ↔ 216001 * 1000000 ≤ age := by
  rw [abs_lt] at hage
  have hdiv : age.tdiv 1000000 = if 0 ≤ age then age / 1000000 else -(-age / 1000000) := by
    split
    · exact Int.tdiv_eq_ediv_of_nonneg ‹_›
    · rw [← Int.tdiv_eq_ediv_of_nonneg (by omega), Int.neg_tdiv, neg_neg]
  unfold InWindow
  rw [hdiv]
  constructor
  · rintro ⟨k, hgt, hlt⟩
    split at hgt <;> omega
  · intro hle
    rw [if_pos (by omega)]
    exact ⟨0, by omega, by omega⟩

/-- **Within 68 years** the requests that are misjudged are those between one and sixty
hours old. -/
theorem judged_iff {now created : DateTime} {transactionNr : Nat}
    (hage : |now - created| < 2 ^ 31 * 1000000) :
    Judged now created transactionNr ↔ transactionNr = 0 ∨
      ¬ (3600 * 1000000 < now - created ∧ now - created < 216001 * 1000000) := by
  refine or_congr_right ?_
  rw [OlderThanHour, inWindow_iff hage, gt_iff_lt, not_and, not_lt]
  refine ⟨fun h => h.mp, fun h => ⟨h, fun hle => lt_of_lt_of_le ?_ hle⟩⟩
  decide

/-! ## What the flag decides -/

/-- A question of the handler's own, not that of a decay check. -/
def IsOwnQuestion (w : World) (this : JsonTransaction) (data : TransactionData) (e : Effect) : Prop :=
  IsQuery e ∧ ¬ IsDecayQuery w this data e

/-- The trace of an archived transaction: the handler asks none of its own questions and publishes
by `puttransaction` alone, with the number of the request. -/
structure HandledArchived (w : World) (this : JsonTransaction) (data : TransactionData)
    (out : List Effect) : Prop where
  asks : ∀ e ∈ out, ¬ IsOwnQuestion w this data e
  sends : ∀ index message answer, Effect.sendMessage index message answer ∉ out
  puts : ∀ params answer, Effect.request "puttransaction" params answer ∈ out →
    ("transactionNr", Json.int this.mTransactionNr) ∈ params

/-- The trace of any other: the handler asks, and publishes by iota alone. -/
structure HandledLive (w : World) (this : JsonTransaction) (data : TransactionData)
    (out : List Effect) : Prop where
  asks : ∃ e ∈ out, IsOwnQuestion w this data e
  puts : ∀ params answer, Effect.request "puttransaction" params answer ∉ out

section Handled

variable {w : World} {request : Request} {s t : Server b} {a : Arrival}

/-- An archived transaction is not asked about. -/
theorem exec_check_of_archive (harchive : a.this.mArchiveTransaction = true) :
    exec (a.check w request) t = (.ok (.ok ()), t) := by
  cases a with
  | creation this =>
    have hthis : this.mArchiveTransaction = true := harchive
    simp only [Arrival.check, JsonCreationTransaction.checkNode]
    rw [if_pos hthis]
    rfl
  | transfer this =>
    have hthis : this.mArchiveTransaction = true := harchive
    simp only [Arrival.check, JsonTransferTransaction.checkNode]
    rw [if_pos hthis]
    rfl
  | registerAddress this =>
    have hthis : this.mArchiveTransaction = true := harchive
    simp only [Arrival.check, JsonRegisterAddressTransaction.checkNode]
    rw [if_pos hthis]
    rfl

/-- A computation whose first request is an own question has asked one. -/
theorem emits_own {α β : Type} {method : String} {params : List (String × Json)}
    {read : Json → Except Exn α} {f : α → Act (Server b) Exn β} {this : JsonTransaction}
    {data : TransactionData} (hmethod : method = "getaddresstype" ∨ method = "getaddresstxids")
    (hf : ∀ x u, Emits (Server.effects b) (f x) (fun _ out => ∀ e ∈ out, True) u) :
    Emits (Server.effects b) (rpc w method params read >>= f)
      (fun _ out => ∃ e ∈ out, IsOwnQuestion w this data e) t := by
  have hown : ∀ answer, IsOwnQuestion w this data (.request method params answer) := by
    refine fun answer => ⟨?_, ?_⟩
    · rcases hmethod with rfl | rfl <;> simp [IsQuery]
    · rintro ⟨pubkey, answer', -, heq⟩
      have hname : method = "getaddressbalance" := by
        injection heq
      rcases hmethod with rfl | rfl <;> exact absurd hname (by decide)
  refine Emits.bind (emits_rpc w method params read t) ?_ ?_
  · rintro x _ u - ⟨answer, rfl, -⟩
    exact (hf x u).mono fun _ out _ => ⟨_, List.mem_append_left out List.mem_cons_self, hown answer⟩
  · rintro e _ ⟨answer, rfl, -⟩
    exact ⟨_, List.mem_cons_self, hown answer⟩

/-- Any other transaction is asked about. -/
theorem emits_check_of_live (harchive : a.this.mArchiveTransaction = false) (data : TransactionData) :
    Emits (Server.effects b) (a.check w request)
      (fun _ out => ∃ e ∈ out, IsOwnQuestion w a.this data e) t := by
  have hrpc : ∀ (method : String) params (read : Json → Except Exn String) (u : Server b),
      Emits (Server.effects b) (rpc w method params read)
        (fun _ out => True ∧ ∀ e ∈ out, True) u :=
    fun method params read u => (emits_rpc w method params read u).mono
      fun _ _ _ => ⟨trivial, fun _ _ => trivial⟩
  cases a with
  | creation this keyPair user amountString targetDate =>
    have hthis : ¬ this.mArchiveTransaction = true := Bool.eq_false_iff.mp harchive
    simp only [Arrival.check, JsonCreationTransaction.checkNode]
    rw [if_neg hthis]
    refine emits_own (Or.inl rfl) fun addressType u => ?_
    split
    · split <;> exact Emits.pure_all
    · refine Emits.bind_all (K := fun _ => True) (hrpc ..) fun sumString u' _ => ?_
      split
      · exact Emits.throw_all
      · exact Emits.throw_all
      · split
        · exact Emits.throw_all
        · exact Emits.pure_all
  | transfer this keyPair user recipientGroupAlias amountString =>
    have hthis : ¬ this.mArchiveTransaction = true := Bool.eq_false_iff.mp harchive
    simp only [Arrival.check, JsonTransferTransaction.checkNode]
    rw [if_neg hthis]
    refine emits_own (Or.inl rfl) fun addressType u => ?_
    split
    · exact Emits.pure_all
    · refine Emits.bind_all (K := fun _ => True) (hrpc ..) fun balanceString u' _ => ?_
      split
      · exact Emits.pure_all
      · exact Emits.pure_all
      · split <;> exact Emits.pure_all
  | registerAddress this keyPair addressType currentGroupAlias newGroupAlias =>
    have hthis : ¬ this.mArchiveTransaction = true := Bool.eq_false_iff.mp harchive
    simp only [Arrival.check, JsonRegisterAddressTransaction.checkNode]
    rw [if_neg hthis]
    refine emits_own (Or.inr rfl) fun addressTxids u => ?_
    split <;> exact Emits.pure_all

/-- What is sent is the call of the factory and the effects of the legs. -/
theorem sendEffect_of_sentAfter {r : Except Exn (Except Document Unit)} {sent : List Effect}
    (h : SentAfter w request a r sent) : ∀ e ∈ sent,
      (∃ answer, e = .create (a.plan w request).data answer) ∨
        SendEffect w { a.this with mMemo := (a.plan w request).memo } (a.plan w request).data e := by
  rcases r with e | d | ⟨⟨⟩⟩
  · rw [show sent = [] from h]
    exact fun _ he => absurd he List.not_mem_nil
  · rw [show sent = [] from h]
    exact fun _ he => absurd he List.not_mem_nil
  · obtain ⟨answer, hstarts⟩ := h
    intro e he
    cases hstarts with
    | notCreated e' => exact Or.inl ⟨_, List.mem_singleton.mp he⟩
    | created _ out hsends =>
      rcases List.mem_cons.mp he with rfl | he
      · exact Or.inl ⟨_, rfl⟩
      · exact Or.inr (sendEffect_of_sends hsends e he)

variable {out : List Effect} {this : JsonTransaction} {data : TransactionData} {memo : String}

/-- Each effect on its own makes the trace that of an archived transaction. -/
theorem HandledArchived.of_each (h : ∀ e ∈ out, HandledArchived w this data [e]) :
    HandledArchived w this data out where
  asks e he := (h e he).asks e List.mem_cons_self
  sends index message answer he := (h _ he).sends index message answer List.mem_cons_self
  puts params answer he := (h _ he).puts params answer List.mem_cons_self

/-- Neither a lookup nor a call of the factory reaches the node. -/
theorem HandledArchived.of_local {e : Effect} (h : IsLookup e ∨ ∃ answer, e = .create data answer) :
    HandledArchived w this data [e] := by
  refine ⟨fun e' he hown => ?_, fun index message answer he => ?_, fun params answer he => ?_⟩
  · obtain rfl := List.mem_singleton.mp he
    rcases h with hlookup | ⟨answer, rfl⟩
    · cases e' <;> first | exact hlookup.elim | exact hown.1.elim
    · exact hown.1.elim
  · rw [← List.mem_singleton.mp he] at h
    rcases h with hlookup | ⟨answer, heq⟩
    · exact hlookup.elim
    · cases heq
  · rw [← List.mem_singleton.mp he] at h
    rcases h with hlookup | ⟨answer, heq⟩
    · exact hlookup.elim
    · cases heq

/-- What an archived transaction sends with is `puttransaction`. -/
theorem HandledArchived.of_send {e : Effect} (harchive : this.mArchiveTransaction = true)
    (h : SendEffect w { this with mMemo := memo } data e) : HandledArchived w this data [e] := by
  refine ⟨fun e' he hown => ?_, fun index message answer he => ?_, fun params answer he => ?_⟩
  · obtain rfl := List.mem_singleton.mp he
    cases h with
    | decay h => exact hown.2 h
    | publish transaction groupAlias r h => exact (isPublished_of_publishes h).2.2 hown.1
    | push sent h =>
      subst h
      exact hown.1.elim
  · rw [← List.mem_singleton.mp he] at h
    cases h with
    | decay h =>
      obtain ⟨_, _, -, heq⟩ := h
      cases heq
    | publish transaction groupAlias r h =>
      simp only [Publishes, harchive, if_true] at h
      obtain ⟨_, heq, -⟩ := h
      cases heq
    | push sent h => cases h
  · rw [← List.mem_singleton.mp he] at h
    cases h with
    | decay h =>
      obtain ⟨_, _, -, heq⟩ := h
      exact absurd (Effect.request.inj heq).1 (by decide)
    | publish transaction groupAlias r h =>
      simp only [Publishes, harchive, if_true] at h
      obtain ⟨_, heq, -⟩ := h
      rw [(Effect.request.inj heq).2.1]
      simp [putParams]
    | push sent h => cases h

/-- **An archived transaction is handled as one.** -/
theorem handledArchived (hreach : Reaches w request s a t)
    (htrace : (exec (a.handler.handle w request) s).2.trace = s.trace ++ out)
    (harchive : a.this.mArchiveTransaction = true) :
    HandledArchived w a.this (a.plan w request).data out := by
  obtain ⟨found, asked, sent, hlookups, hqueries, hasked, hsent, hall⟩ := hreach.trace
  rw [exec_check_of_archive harchive] at hasked hsent
  obtain rfl : asked = [] := List.append_right_eq_self.mp hasked.symm
  rw [htrace, List.append_cancel_left_eq, List.append_nil] at hall
  subst hall
  refine .of_each fun e he => ?_
  rcases List.mem_append.mp he with he | he
  · exact .of_local (Or.inl (hlookups e he))
  · rcases sendEffect_of_sentAfter hsent e he with hcreate | hsend
    · exact .of_local (Or.inr hcreate)
    · exact .of_send harchive hsend

/-- What any other transaction sends with is no `puttransaction`. -/
theorem not_put_of_send {e : Effect} (hlive : this.mArchiveTransaction = false)
    (h : SendEffect w { this with mMemo := memo } data e) (params : List (String × Json))
    (answer : Except Exn Json) : e ≠ .request "puttransaction" params answer := by
  rintro rfl
  cases h with
  | decay h =>
    obtain ⟨_, _, -, heq⟩ := h
    exact absurd (Effect.request.inj heq).1 (by decide)
  | publish transaction groupAlias r h =>
    simp only [Publishes, hlive] at h
    cases h
  | push sent h => cases h

/-- **Any other transaction is handled as such.** -/
theorem handledLive (hreach : Reaches w request s a t)
    (htrace : (exec (a.handler.handle w request) s).2.trace = s.trace ++ out)
    (hlive : a.this.mArchiveTransaction = false) :
    HandledLive w a.this (a.plan w request).data out := by
  obtain ⟨found, asked, sent, hlookups, hqueries, hasked, hsent, hall⟩ := hreach.trace
  rw [htrace, List.append_cancel_left_eq] at hall
  subst hall
  constructor
  · have hemits : Emits (Server.effects b) (a.check w request)
        (fun _ out => ∃ e ∈ out, IsOwnQuestion w a.this (a.plan w request).data e) t :=
      emits_check_of_live hlive _
    obtain ⟨asked', hasked', e, he, hown⟩ := hemits
    obtain rfl : asked' = asked := List.append_cancel_left (hasked'.trace.symm.trans hasked)
    exact ⟨e, List.mem_append_left _ (List.mem_append_right _ he), hown⟩
  · intro params answer he
    rcases List.mem_append.mp he with he | he
    · rcases List.mem_append.mp he with he | he
      · exact hlookups _ he
      · exact hqueries _ he rfl
    · rcases sendEffect_of_sentAfter hsent _ he with ⟨_, heq⟩ | hsend
      · cases heq
      · exact not_put_of_send hlive hsend params answer rfl

/-- **The flag decides** whether a request is handled as archived. -/
theorem handledArchived_iff (hreach : Reaches w request s a t)
    (htrace : (exec (a.handler.handle w request) s).2.trace = s.trace ++ out) :
    HandledArchived w a.this (a.plan w request).data out ↔ a.this.mArchiveTransaction = true := by
  refine ⟨fun harchived => ?_, handledArchived hreach htrace⟩
  by_contra hflag
  obtain ⟨e, he, hown⟩ := (handledLive hreach htrace (Bool.eq_false_iff.mpr hflag)).asks
  exact harchived.asks e he hown

theorem handledLive_iff (hreach : Reaches w request s a t)
    (htrace : (exec (a.handler.handle w request) s).2.trace = s.trace ++ out) :
    HandledLive w a.this (a.plan w request).data out ↔ ¬ a.this.mArchiveTransaction = true := by
  refine ⟨fun hlive harchive => ?_, fun h => handledLive hreach htrace (Bool.eq_false_iff.mpr h)⟩
  obtain ⟨e, he, hown⟩ := hlive.asks
  exact (handledArchived hreach htrace harchive).asks e he hown

end Handled

/-! ## Requests as a whole -/

section Classified

variable {w : World} {request : Request} {s t : Server b} {this : JsonTransaction}

/-- A request to this handler that comes to its phases is handled as an archived transaction exactly
if it has a number and is older than an hour, and as a live one exactly if not. -/
def Classified (w : World) (h : Handler) (request : Request) (s : Server b) (this : JsonTransaction) :
    Prop :=
  ∀ a t out, Reaches w request s a t → a.handler = h →
    (exec (h.handle w request) s).2.trace = s.trace ++ out →
    (HandledArchived w this (a.plan w request).data out ↔
      Archived (w.clock s.trace) this.mCreated this.mTransactionNr) ∧
    (HandledLive w this (a.plan w request).data out ↔
      ¬ Archived (w.clock s.trace) this.mCreated this.mTransactionNr)

/-- A request that arrives has had its parameters accepted. -/
theorem Reaches.shared {a : Arrival} (h : Reaches w request s a t) :
    ∃ t₀, exec (readSharedParameter w request) s = (.ok (.ok a.this), t₀) := by
  cases h with
  | creation _ _ _ _ _ _ _ t₀ _ hshared => exact ⟨t₀, hshared⟩
  | transfer _ _ _ _ _ _ _ t₀ _ _ hshared => exact ⟨t₀, hshared⟩
  | registerAddress _ _ _ _ hshared => exact ⟨t, hshared⟩

theorem archive_of_shared (h : exec (readSharedParameter w request) s = (.ok (.ok this), t)) :
    this.mArchiveTransaction = isArchive (w.clock s.trace) this.mCreated this.mTransactionNr := by
  obtain ⟨_, _, _, _, _, _, rfl⟩ := exec_readSharedParameter_eq_ok.mp h
  rfl

/-- **A request is classified as the comment says** exactly where it is judged, or stops before it
is handled at all. -/
theorem classified_iff (h : Handler)
    (hshared : exec (readSharedParameter w request) s = (.ok (.ok this), t)) :
    Classified w h request s this ↔ (∀ a u, Reaches w request s a u → a.handler ≠ h) ∨
      Judged (w.clock s.trace) this.mCreated this.mTransactionNr := by
  rw [← judged_iff_isArchive, ← archive_of_shared hshared]
  have hthis : ∀ {a u}, Reaches w request s a u → a.this = this := by
    intro a u hreach
    obtain ⟨_, hshared'⟩ := hreach.shared
    cases hshared'.symm.trans hshared
    rfl
  constructor
  · intro hclassified
    by_cases hstops : ∀ a u, Reaches w request s a u → a.handler ≠ h
    · exact Or.inl hstops
    · push Not at hstops
      obtain ⟨a, u, hreach, rfl⟩ := hstops
      obtain ⟨_, _, _, -, -, -, -, htrace⟩ := hreach.trace
      obtain ⟨harchived, -⟩ := hclassified a u _ hreach rfl htrace
      have hflag := handledArchived_iff hreach htrace
      rw [hthis hreach] at hflag
      exact Or.inr (hflag.symm.trans harchived)
  · rintro (hstops | hflag) a u out hreach rfl htrace
    · exact absurd rfl (hstops a u hreach)
    · have harchived := handledArchived_iff hreach htrace
      have hlive := handledLive_iff hreach htrace
      rw [hthis hreach] at harchived hlive
      exact ⟨harchived.trans hflag, hlive.trans (not_congr hflag)⟩

end Classified

/-! ### Numbered transfers of alice -/

/-- A transfer of `alice` to herself, created so many seconds after 1970. -/
def numberedTransfer (created : String) : Request :=
  aliceRequest [("created", created), ("recipientName", "alice"), ("amount", "1")]
    [("transactionNr", 1)]

/-- A transfer a year old is archived. -/
theorem classified_yearOld : ∃ this t,
    exec (readSharedParameter plainWorld (numberedTransfer "0")) aliceServer = (.ok (.ok this), t) ∧
      Classified plainWorld .transfer (numberedTransfer "0") aliceServer this := by
  exact ⟨_, _, by rfl, (classified_iff .transfer (by rfl)).mpr (Or.inr (by decide))⟩

/-- One that is two hours old is not. -/
theorem two_hours_live : ∃ this t,
    exec (readSharedParameter plainWorld (numberedTransfer "31528800")) aliceServer =
      (.ok (.ok this), t) ∧
    Archived (plainWorld.clock aliceServer.trace) this.mCreated this.mTransactionNr ∧
      ¬ Classified plainWorld .transfer (numberedTransfer "31528800") aliceServer this := by
  have hreach : ∃ a t, Reaches plainWorld (numberedTransfer "31528800") aliceServer a t ∧
      a.handler = .transfer ∧ a.this.mArchiveTransaction = false ∧
      Archived (plainWorld.clock aliceServer.trace) a.this.mCreated a.this.mTransactionNr :=
    ⟨_, _, .transfer _ _ _ "alice" _ "1" _ _ _ _ (by rfl) (by rfl) (by rfl) (by rfl) (by rfl)
      (by rfl), rfl, by rfl, by decide⟩
  obtain ⟨a, t, hreach, hhandler, hlive, harchived⟩ := hreach
  obtain ⟨u, hshared⟩ := hreach.shared
  refine ⟨a.this, u, hshared, harchived, fun hclassified => ?_⟩
  obtain ⟨_, _, _, -, -, -, -, htrace⟩ := hreach.trace
  rw [← hhandler] at hclassified
  have hflag := (handledArchived_iff hreach htrace).mp
    ((hclassified a t _ hreach rfl htrace).1.mpr harchived)
  rw [hlive] at hflag
  cases hflag

end GradidoConnector
