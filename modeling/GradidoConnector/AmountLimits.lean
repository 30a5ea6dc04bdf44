import GradidoConnector.Phases

/-!
# The limits on amounts

A creation is refused when the sum of the month and the amount compare greater than 1000, and a
transfer when its amount compares greater than the balance. `mpfr_set_str` reads "nan" and the
infinities, too, and a comparison with not-a-number says "equal", so such an amount passes both
tests (`nan_created`).

`Operands` says which numbers a request compares, `Creates` that it gets to `TransactionFactory`.

Results:
* `exists_passes_iff`: the questions pass when the comparison does not say "greater".
* `creates_iff`: a request gets to `TransactionFactory` when its questions pass.
* **`limitKept_iff`**: the limit is kept exactly by the requests that do not compare not-a-number.
-/

namespace GradidoConnector

open GradidoConnector.Base GradidoConnector.Base.Act

open JsonTransaction GradidoNodeRPC

variable {b : Backend}

/-- The numbers that a request compares: the sum of the month or the balance, from the Gradido Node,
and the amount. -/
inductive Operands (w : World) (request : Request) (t : Server b) : Arrival → Mpfr → Mpfr → Prop
  | creation (this : JsonTransaction) (keyPair : KeyPair) (user : User) (amountString : String)
      (targetDate : DateTime) (t₁ t₂ : Server b) (sumString : String) (sum amount : Mpfr)
      (htype : exec (getAddressType w (w.lib.binToHex user.publicKey) this.mSession.mGroupAlias) t =
        (.ok (w.lib.getAddressStringFromType .human), t₁))
      (hsum : exec (getCreationSumForMonth w (w.lib.binToHex user.publicKey) (w.lib.month targetDate)
        (w.lib.year targetDate) (w.lib.format this.mCreated) this.mSession.mGroupAlias) t₁ =
          (.ok sumString, t₂))
      (hparse : w.lib.mpfrSetStr sumString = some sum)
      (hamount : w.lib.mpfrSetStr amountString = some amount) :
      Operands w request t (.creation this keyPair user amountString targetDate) sum amount
  | transfer (this : JsonTransaction) (keyPair : KeyPair) (user : User)
      (recipientGroupAlias amountString : String) (t₁ t₂ : Server b)
      (addressType balanceString : String) (balance amount : Mpfr)
      (htype : exec (getAddressType w (w.lib.binToHex user.publicKey) recipientGroupAlias) t =
        (.ok addressType, t₁))
      (hregistered : addressType ≠ w.lib.getAddressStringFromType .none)
      (hbalance : exec (getAddressBalance w (w.lib.binToHex keyPair.publicKey)
        (request.params.str "created") this.mSession.mGroupAlias (request.params.str "coinGroupId"))
          t₁ = (.ok balanceString, t₂))
      (hparse : w.lib.mpfrSetStr balanceString = some balance)
      (hamount : w.lib.mpfrSetStr amountString = some amount) :
      Operands w request t (.transfer this keyPair user recipientGroupAlias amountString) balance amount

/-- The comparison of a handler does not say "greater". -/
def Passes : Handler → Mpfr → Mpfr → Prop
  | .creation, sum, amount => (sum.add amount).cmp (.num 1000) ≠ .gt
  | .transfer, balance, amount => amount.cmp balance ≠ .gt
  | .registerAddress, _, _ => True

/-- Both are numbers and the amount keeps the limit. -/
def Within : Handler → Mpfr → Mpfr → Prop
  | .creation, sum, amount => sum ≠ .nan ∧ amount ≠ .nan ∧ (sum.add amount).le (.num 1000)
  | .transfer, balance, amount => balance ≠ .nan ∧ amount ≠ .nan ∧ amount.le balance
  | .registerAddress, _, _ => True

/-- What is compared are numbers. -/
def Comparable : Handler → Mpfr → Mpfr → Prop
  | .creation, sum, amount => sum.add amount ≠ .nan
  | .transfer, balance, amount => balance ≠ .nan ∧ amount ≠ .nan
  | .registerAddress, _, _ => True

/-- Numbers pass within the limit. -/
theorem within_of_passes {h : Handler} {x y : Mpfr} (hcomp : Comparable h x y) (hpass : Passes h x y) :
    Within h x y := by
  cases h with
  | creation =>
    obtain ⟨hx, hy⟩ := Mpfr.ne_nan_of_add hcomp
    exact ⟨hx, hy, (Mpfr.cmp_ne_gt_iff hcomp (by simp)).mp hpass⟩
  | transfer => exact ⟨hcomp.1, hcomp.2, (Mpfr.cmp_ne_gt_iff hcomp.2 hcomp.1).mp hpass⟩
  | registerAddress => trivial

/-- What is within the limit is a number. -/
theorem comparable_of_within {h : Handler} {x y : Mpfr} (hwithin : Within h x y) : Comparable h x y := by
  cases h with
  | creation =>
    intro hnan
    have hle := hwithin.2.2
    rw [hnan] at hle
    exact Mpfr.not_nan_le hle
  | transfer => exact ⟨hwithin.1, hwithin.2.1⟩
  | registerAddress => trivial

/-- What is not a number passes. -/
theorem passes_of_not_comparable {h : Handler} {x y : Mpfr} (hcomp : ¬ Comparable h x y) :
    Passes h x y := by
  cases h with
  | creation =>
    have hnan : x.add y = .nan := by simpa [Comparable] using hcomp
    show (x.add y).cmp (.num 1000) ≠ .gt
    rw [Mpfr.cmp_eq_of_nan (Or.inl hnan)]
    decide
  | transfer =>
    have hnan : y = .nan ∨ x = .nan := by
      unfold Comparable at hcomp
      by_contra hnone
      exact hcomp ⟨fun hx => hnone (Or.inr hx), fun hy => hnone (Or.inl hy)⟩
    show y.cmp x ≠ .gt
    rw [Mpfr.cmp_eq_of_nan hnan]
    decide
  | registerAddress => trivial

section Check

variable {w : World} {request : Request} {a : Arrival} {t : Server b} {x y x' y' : Mpfr}

theorem Operands.unique (h : Operands w request t a x y) (h' : Operands w request t a x' y') :
    x = x' ∧ y = y' := by
  cases h with
  | creation this keyPair user amountString targetDate t₁ t₂ sumString sum amount htype hsum hparse
      hamount =>
    cases h' with
    | creation _ _ _ _ _ _ _ _ _ _ htype' hsum' hparse' hamount' =>
      cases htype.symm.trans htype'
      cases hsum.symm.trans hsum'
      cases hparse.symm.trans hparse'
      cases hamount.symm.trans hamount'
      exact ⟨rfl, rfl⟩
  | transfer this keyPair user recipientGroupAlias amountString t₁ t₂ addressType balanceString
      balance amount htype hregistered hbalance hparse hamount =>
    cases h' with
    | transfer _ _ _ _ _ _ _ _ _ _ _ htype' _ hbalance' hparse' hamount' =>
      cases htype.symm.trans htype'
      cases hbalance.symm.trans hbalance'
      cases hparse.symm.trans hparse'
      cases hamount.symm.trans hamount'
      exact ⟨rfl, rfl⟩

/-- Operands that pass let the questions pass. -/
theorem check_of_passes (harchive : a.this.mArchiveTransaction = false)
    (h : Operands w request t a x y) (hpass : Passes a.handler x y) :
    ∃ t', exec (a.check w request) t = (.ok (.ok ()), t') := by
  cases h with
  | creation this keyPair user amountString targetDate t₁ t₂ sumString sum amount htype hsum hparse
      hamount =>
    have harchive' : ¬ this.mArchiveTransaction = true := by
      rw [show this.mArchiveTransaction = false from harchive]
      decide
    refine ⟨t₂, ?_⟩
    show exec (JsonCreationTransaction.checkNode w this user.publicKey amountString targetDate) t = _
    unfold JsonCreationTransaction.checkNode
    rw [if_neg harchive']
    simp only [exec_bind, htype, ne_eq, not_true, if_false, hsum, hparse, hamount]
    rw [if_neg (show ¬ (x.add y).cmp (.num 1000) = .gt from hpass)]
    rfl
  | transfer this keyPair user recipientGroupAlias amountString t₁ t₂ addressType balanceString
      balance amount htype hregistered hbalance hparse hamount =>
    have harchive' : ¬ this.mArchiveTransaction = true := by
      rw [show this.mArchiveTransaction = false from harchive]
      decide
    refine ⟨t₂, ?_⟩
    show exec (JsonTransferTransaction.checkNode w this request keyPair.publicKey user.publicKey
      recipientGroupAlias amountString) t = _
    unfold JsonTransferTransaction.checkNode
    rw [if_neg harchive']
    simp only [exec_bind, htype, if_neg hregistered, hbalance, hparse, hamount]
    rw [if_neg (show ¬ y.cmp x = .gt from hpass)]
    rfl

/-- Questions of a creation that pass have compared their numbers. -/
theorem operands_of_creation {this : JsonTransaction} {keyPair : KeyPair} {user : User}
    {amountString : String} {targetDate : DateTime} {t' : Server b}
    (harchive : this.mArchiveTransaction = false)
    (h : exec (JsonCreationTransaction.checkNode w this user.publicKey amountString targetDate) t =
      (.ok (.ok ()), t')) :
    ∃ sum amount, Operands w request t (.creation this keyPair user amountString targetDate) sum amount ∧
      Passes .creation sum amount := by
  unfold JsonCreationTransaction.checkNode at h
  rw [if_neg (by rw [harchive]; decide)] at h
  obtain ⟨addressType, t₁, htype, h⟩ := of_exec_bind h
  by_cases hhuman : addressType = w.lib.getAddressStringFromType .human
  · subst hhuman
    rw [if_neg (not_not.mpr rfl)] at h
    obtain ⟨sumString, t₂, hsum, h⟩ := of_exec_bind h
    cases hparse : w.lib.mpfrSetStr sumString with
    | none =>
      rw [hparse] at h
      cases h
    | some sum =>
    cases hamount : w.lib.mpfrSetStr amountString with
    | none =>
      rw [hparse, hamount] at h
      cases h
    | some amount =>
    rw [hparse, hamount] at h
    dsimp only at h
    by_cases hgt : (sum.add amount).cmp (.num 1000) = .gt
    · rw [if_pos hgt] at h
      cases h
    · exact ⟨sum, amount, .creation _ _ _ _ _ t₁ t₂ sumString sum amount htype hsum hparse hamount, hgt⟩
  · rw [if_pos hhuman] at h
    split at h <;> cases h

/-- Questions of a transfer that pass have compared their numbers. -/
theorem operands_of_transfer {this : JsonTransaction} {keyPair : KeyPair} {user : User}
    {recipientGroupAlias amountString : String} {t' : Server b}
    (harchive : this.mArchiveTransaction = false)
    (h : exec (JsonTransferTransaction.checkNode w this request keyPair.publicKey user.publicKey
      recipientGroupAlias amountString) t = (.ok (.ok ()), t')) :
    ∃ balance amount, Operands w request t
        (.transfer this keyPair user recipientGroupAlias amountString) balance amount ∧
      Passes .transfer balance amount := by
  unfold JsonTransferTransaction.checkNode at h
  rw [if_neg (by rw [harchive]; decide)] at h
  obtain ⟨addressType, t₁, htype, h⟩ := of_exec_bind h
  by_cases hnone : addressType = w.lib.getAddressStringFromType .none
  · rw [if_pos hnone] at h
    cases h
  · rw [if_neg hnone] at h
    obtain ⟨balanceString, t₂, hbalance, h⟩ := of_exec_bind h
    cases hparse : w.lib.mpfrSetStr balanceString with
    | none =>
      rw [hparse] at h
      cases h
    | some balance =>
    cases hamount : w.lib.mpfrSetStr amountString with
    | none =>
      rw [hparse, hamount] at h
      cases h
    | some amount =>
    rw [hparse, hamount] at h
    dsimp only at h
    by_cases hgt : amount.cmp balance = .gt
    · rw [if_pos hgt] at h
      cases h
    · exact ⟨balance, amount, .transfer _ _ _ _ _ t₁ t₂ addressType balanceString balance amount htype
        hnone hbalance hparse hamount, hgt⟩

/-- **The questions pass** when the comparison does not say "greater". -/
theorem exists_passes_iff (harchive : a.this.mArchiveTransaction = false)
    (hlimit : a.handler ≠ .registerAddress) :
    (∃ t', exec (a.check w request) t = (.ok (.ok ()), t')) ↔
      ∃ x y, Operands w request t a x y ∧ Passes a.handler x y := by
  constructor
  · rintro ⟨t', h⟩
    cases a with
    | creation => exact operands_of_creation harchive h
    | transfer => exact operands_of_transfer harchive h
    | registerAddress => exact absurd rfl hlimit
  · rintro ⟨x, y, hoperands, hpass⟩
    exact check_of_passes harchive hoperands hpass

end Check

/-! ## Getting to the factory -/

/-- The request gets to `TransactionFactory`. -/
def Creates (w : World) (h : Handler) (request : Request) (s : Server b) : Prop :=
  ∃ out data answer, (exec (h.handle w request) s).2.trace = s.trace ++ out ∧
    Effect.create data answer ∈ out

/-- No effect is a call of the factory. -/
def NoCreate (out : List Effect) : Prop := ∀ data answer, Effect.create data answer ∉ out

theorem noCreate_of_lookups {out : List Effect} (h : ∀ e ∈ out, IsLookup e) : NoCreate out :=
  fun _ _ hmem => h _ hmem

theorem noCreate_of_queries {out : List Effect} (h : ∀ e ∈ out, IsQuery e) : NoCreate out :=
  fun _ _ hmem => h _ hmem

theorem not_creates {w : World} {h : Handler} {request : Request} {s : Server b} {out : List Effect}
    (htrace : (exec (h.handle w request) s).2.trace = s.trace ++ out) (hnone : NoCreate out) :
    ¬ Creates w h request s := by
  rintro ⟨out', data, answer, htrace', hmem⟩
  rw [htrace] at htrace'
  rw [← List.append_cancel_left htrace'] at hmem
  exact hnone data answer hmem

section Creates

variable {w : World} {request : Request} {s t : Server b} {a : Arrival}

/-- **A request gets to the factory when its questions pass.** -/
theorem creates_iff (h : Reaches w request s a t) :
    Creates w a.handler request s ↔ ∃ t', exec (a.check w request) t = (.ok (.ok ()), t') := by
  obtain ⟨found, asked, sent, hlookups, hqueries, -, hsent, htrace⟩ := h.trace
  have hnone : NoCreate (found ++ asked) := by
    rintro data answer hmem
    rcases List.mem_append.mp hmem with hmem | hmem
    · exact noCreate_of_lookups hlookups data answer hmem
    · exact noCreate_of_queries hqueries data answer hmem
  cases hcheck : exec (a.check w request) t with
  | mk r t' =>
  rw [hcheck] at hsent
  rcases r with e | d | ⟨⟨⟩⟩
  · refine iff_of_false (not_creates htrace ?_) (by simp)
    rw [show sent = [] from hsent, List.append_nil]
    exact hnone
  · refine iff_of_false (not_creates htrace ?_) (by simp)
    rw [show sent = [] from hsent, List.append_nil]
    exact hnone
  · obtain ⟨answer, hstarts⟩ := hsent
    have hcreate : ∃ made, Effect.create (a.plan w request).data made ∈ sent := by
      cases hstarts with
      | notCreated e => exact ⟨_, List.mem_cons_self⟩
      | created r rest hsends => exact ⟨_, List.mem_cons_self⟩
    obtain ⟨made, hmade⟩ := hcreate
    exact iff_of_true ⟨_, _, made, htrace, List.mem_append_right _ hmade⟩ ⟨t', rfl⟩

/-- A request never gets to the factory, or comes to its phases. -/
def Decided (w : World) (h : Handler) (request : Request) (s : Server b) (out : List Effect) : Prop :=
  NoCreate out ∨ ∃ a t, Reaches w request s a t ∧ a.handler = h

theorem emits_creation (w : World) (request : Request) (s : Server b) :
    Emits (Server.effects b) (JsonCreationTransaction.handle w request)
      (fun _ out => Decided w .creation request s out) s := by
  unfold JsonCreationTransaction.handle withSharedParameter
  have hnil : NoCreate ([] : List Effect) := fun _ _ hmem => absurd hmem List.not_mem_nil
  refine Emits.bind_exec (emits_readSharedParameter w request s) ?_ ?_
  · rintro (d | this) out t₀ hshared - ⟨rfl, -⟩
    · exact Emits.pure (Or.inl hnil)
    · dsimp only
      cases hname : request.params.getStringParameter "recipientName" with
      | error d => exact Emits.pure (Or.inl hnil)
      | ok recipientName =>
      cases hamount : request.params.getStringParameter "amount" with
      | error d => exact Emits.pure (Or.inl hnil)
      | ok amountString =>
      cases hdate : request.params.getStringParameter "targetDate" with
      | error d => exact Emits.pure (Or.inl hnil)
      | ok targetDateString =>
      cases htarget : JsonCreationTransaction.readTargetDate w targetDateString with
      | error d =>
        simp only [htarget]
        exact Emits.pure (Or.inl hnil)
      | ok targetDate =>
      simp only [htarget]
      refine Emits.bind_exec (w.emits_loadUser recipientName this.mSession.mGroupId t₀) ?_ ?_
      · rintro user out t huser - ⟨rfl, -⟩
        cases hkey : this.mSession.mUserKeyPair with
        | none => exact Emits.throw (Or.inl (noCreate_of_lookups (by simp [IsLookup])))
        | some keyPair =>
          exact (JsonCreationTransaction.emits_createFor hname hamount hdate htarget hkey).mono
            fun _ _ _ => Or.inr ⟨_, t, .creation this keyPair user recipientName amountString
              targetDateString targetDate t₀ t hshared hname hamount hdate htarget huser hkey, rfl⟩
      · rintro e out ⟨rfl, -⟩
        exact Or.inl (noCreate_of_lookups (by simp [IsLookup]))
  · rintro e out ⟨rfl, -⟩
    exact Or.inl hnil

theorem emits_transfer (w : World) (request : Request) (s : Server b) :
    Emits (Server.effects b) (JsonTransferTransaction.handle w request)
      (fun _ out => Decided w .transfer request s out) s := by
  unfold JsonTransferTransaction.handle withSharedParameter
  have hnil : NoCreate ([] : List Effect) := fun _ _ hmem => absurd hmem List.not_mem_nil
  refine Emits.bind_exec (emits_readSharedParameter w request s) ?_ ?_
  · rintro (d | this) out t₀ hshared - ⟨rfl, -⟩
    · exact Emits.pure (Or.inl hnil)
    · dsimp only
      cases hname : request.params.getStringParameter "recipientName" with
      | error d => exact Emits.pure (Or.inl hnil)
      | ok recipientName =>
      refine Emits.bind_exec (JsonTransferTransaction.emits_recipientGroup w this.mSession _ t₀) ?_ ?_
      · rintro (d | ⟨targetGroupId, groupAlias⟩) found t₁ hgroup - ⟨hfound, -, hgroupFound⟩
        · refine Emits.pure (Or.inl ?_)
          rw [List.append_nil]
          exact noCreate_of_lookups hfound
        · dsimp only
          cases hamount : request.params.getStringParameter "amount" with
          | error d =>
            refine Emits.pure (Or.inl ?_)
            rw [List.append_nil]
            exact noCreate_of_lookups hfound
          | ok amountString =>
          have hlookups : ∀ r, ∀ e ∈ found ++ [.loadUser recipientName targetGroupId r],
              IsLookup e := by
            intro r e he
            rcases List.mem_append.mp he with he | he
            · exact hfound e he
            · rw [List.mem_singleton.mp he]
              trivial
          refine Emits.bind_exec (w.emits_loadUser recipientName targetGroupId t₁) ?_ ?_
          · rintro user _ t huser - ⟨rfl, -⟩
            cases hkey : this.mSession.mUserKeyPair with
            | none =>
              refine Emits.throw (Or.inl ?_)
              rw [List.append_nil]
              exact noCreate_of_lookups (hlookups _)
            | some keyPair =>
              have hrecipient : JsonTransferTransaction.Recipient this request recipientName user
                  groupAlias _ := JsonTransferTransaction.recipient_of_groupFound user
                (hgroupFound _ _ rfl)
              exact (JsonTransferTransaction.emits_transferTo hname hamount hkey hrecipient
                (hlookups _)).mono fun _ _ _ => Or.inr ⟨_, t, .transfer this keyPair user recipientName
                  groupAlias amountString targetGroupId t₀ t₁ t hshared hname hgroup hamount huser hkey,
                  rfl⟩
          · rintro e _ ⟨rfl, -⟩
            exact Or.inl (noCreate_of_lookups (hlookups _))
      · rintro e found ⟨hfound, -⟩
        exact Or.inl (noCreate_of_lookups hfound)
  · rintro e out ⟨rfl, -⟩
    exact Or.inl hnil

/-- **A request that gets to the factory has come to its phases.** -/
theorem reaches_of_creates {h : Handler} (hlimit : h ≠ .registerAddress)
    (hcreates : Creates w h request s) :
    ∃ a t, Reaches w request s a t ∧ a.handler = h := by
  have hdecided : Emits (Server.effects b) (h.handle w request)
      (fun _ out => Decided w h request s out) s := by
    cases h with
    | creation => exact emits_creation w request s
    | transfer => exact emits_transfer w request s
    | registerAddress => exact absurd rfl hlimit
  obtain ⟨out, hafter, hnone | hreach⟩ := hdecided
  · exact absurd hcreates (not_creates hafter.trace hnone)
  · exact hreach

end Creates

/-! ## The limit -/

/-- A request gets to the factory only if it is archived or compares two numbers within
the limit. -/
def LimitKept (w : World) (h : Handler) (request : Request) (s : Server b) : Prop :=
  Creates w h request s → ∃ a t, Reaches w request s a t ∧ a.handler = h ∧
    (a.this.mArchiveTransaction = true ∨ ∃ x y, Operands w request t a x y ∧ Within h x y)

/-- Whatever a request compares are numbers. -/
def ComparesNumbers (w : World) (h : Handler) (request : Request) (s : Server b) : Prop :=
  ∀ a t x y, Reaches w request s a t → a.handler = h → a.this.mArchiveTransaction = false →
    Operands w request t a x y → Comparable h x y

/-- A request that compares not-a-number gets to the factory with it. -/
theorem not_limitKept {w : World} {request : Request} {s t : Server b} {a : Arrival} {x y : Mpfr}
    (hreach : Reaches w request s a t) (harchive : a.this.mArchiveTransaction = false)
    (hoperands : Operands w request t a x y) (hcomp : ¬ Comparable a.handler x y) :
    ¬ LimitKept w a.handler request s := by
  intro hkept
  have hpasses := check_of_passes harchive hoperands (passes_of_not_comparable hcomp)
  obtain ⟨a', t', hreach', hsame, hkept⟩ := hkept ((creates_iff hreach).mpr hpasses)
  obtain ⟨rfl, rfl⟩ := hreach.unique hreach' hsame.symm
  rcases hkept with harchive' | ⟨x', y', hoperands', hwithin⟩
  · rw [harchive] at harchive'
    cases harchive'
  · obtain ⟨rfl, rfl⟩ := hoperands.unique hoperands'
    exact hcomp (comparable_of_within hwithin)

/-- **The limit is kept exactly by the requests that do not compare not-a-number.** -/
theorem limitKept_iff (w : World) (h : Handler) (request : Request) (s : Server b)
    (hlimit : h ≠ .registerAddress) : LimitKept w h request s ↔ ComparesNumbers w h request s := by
  constructor
  · rintro hkept a t x y hreach rfl harchive hoperands
    by_contra hcomp
    exact not_limitKept hreach harchive hoperands hcomp hkept
  · intro hnumbers hcreates
    obtain ⟨a, t, hreach, rfl⟩ := reaches_of_creates hlimit hcreates
    refine ⟨a, t, hreach, rfl, ?_⟩
    cases harchive : a.this.mArchiveTransaction with
    | true => exact Or.inl rfl
    | false =>
      obtain ⟨x, y, hoperands, hpass⟩ :=
        (exists_passes_iff harchive hlimit).mp ((creates_iff hreach).mp hcreates)
      exact Or.inr ⟨x, y, hoperands,
        within_of_passes (hnumbers a t x y hreach rfl harchive hoperands) hpass⟩

/-! ### Amounts of alice -/

/-- A world in which everybody has an address, a balance and a sum of creations. -/
def answeringWorld : World where
  __ := plainWorld
  request _ _ _ := .ok (.obj [("result", .obj [("addressType", .str "HUMAN"), ("balance", .str "10"),
    ("sum", .str "0")])])

/-- The same with a library that reads "nan". -/
def nanWorld : World where
  __ := answeringWorld
  lib := { plainLibrary with
    mpfrSetStr := fun s => if s = "nan" then some .nan else plainLibrary.mpfrSetStr s }

/-- A request of `alice` about this amount for herself. -/
def payAlice (amount : String) : Request :=
  aliceRequest [("created", "0"), ("recipientName", "alice"), ("amount", amount), ("targetDate", "0")] []

theorem plain_ne_nan {s : String} {x : Mpfr} (h : plainLibrary.mpfrSetStr s = some x) : x ≠ .nan := by
  rintro rfl
  obtain ⟨n, -, hn⟩ := Option.map_eq_some_iff.mp h
  cases hn

/-- A transfer of one keeps the limit. -/
theorem limitKept_alice : LimitKept answeringWorld .transfer (payAlice "1") aliceServer := by
  refine (limitKept_iff answeringWorld .transfer (payAlice "1") aliceServer (by decide)).mpr ?_
  rintro a t x y - hhandler - hoperands
  cases hoperands with
  | creation => cases hhandler
  | transfer _ _ _ _ _ _ _ _ _ _ _ _ _ _ hparse hamount =>
    exact ⟨plain_ne_nan hparse, plain_ne_nan hamount⟩

/-- A creation and a transfer of "nan" do not. -/
theorem nan_created : ¬ LimitKept nanWorld .creation (payAlice "nan") aliceServer ∧
    ¬ LimitKept nanWorld .transfer (payAlice "nan") aliceServer := by
  constructor
  · have hreach : ∃ a t sum, Reaches nanWorld (payAlice "nan") aliceServer a t ∧
        a.this.mArchiveTransaction = false ∧ a.handler = .creation ∧
        Operands nanWorld (payAlice "nan") t a sum .nan :=
      ⟨_, _, _, .creation _ _ _ "alice" "nan" "0" _ _ _ (by rfl) (by rfl) (by rfl) (by rfl) (by rfl)
        (by rfl) (by rfl), by rfl, rfl, .creation _ _ _ _ _ _ _ _ _ _ (by rfl) (by rfl) (by rfl) (by rfl)⟩
    obtain ⟨a, t, sum, hreach, harchive, hhandler, hoperands⟩ := hreach
    rw [← hhandler]
    refine not_limitKept hreach harchive hoperands fun hcomp => ?_
    rw [hhandler] at hcomp
    exact (Mpfr.ne_nan_of_add hcomp).2 rfl
  · have hreach : ∃ a t balance, Reaches nanWorld (payAlice "nan") aliceServer a t ∧
        a.this.mArchiveTransaction = false ∧ a.handler = .transfer ∧
        Operands nanWorld (payAlice "nan") t a balance .nan :=
      ⟨_, _, _, .transfer _ _ _ "alice" _ "nan" _ _ _ _ (by rfl) (by rfl) (by rfl) (by rfl) (by rfl)
        (by rfl), by rfl, rfl,
        .transfer _ _ _ _ _ _ _ _ _ _ _ (by rfl) (by decide) (by rfl) (by rfl) (by rfl)⟩
    obtain ⟨a, t, balance, hreach, harchive, hhandler, hoperands⟩ := hreach
    rw [← hhandler]
    refine not_limitKept hreach harchive hoperands fun hcomp => ?_
    rw [hhandler] at hcomp
    exact hcomp.2 rfl

end GradidoConnector
