import GradidoConnector.Base.Linearize
import GradidoConnector.LoginViews
import Mathlib.Data.Fintype.Defs
import Mathlib.Data.List.Permutation

/-!
# Concurrent logins

Any number of `SessionManager::login` calls on one server, in any schedule of their steps
(`LoginSteps`), with the keys of the MySQL tables. The clock stands still meanwhile, so that the
tokens of two runs can be compared.

A call may be taken to happen as a whole at the step that finds its session, or that settles its
group: from there on the view of its user fixes what it does (`LoginViews`). This needs that no
other call of its user, and no other insert of its group, comes into its windows (`Safe`).

* The code guards neither window. `mActiveSessions` is read before and written after all of
  `loginOrCreate`, and `getGroupId` inserts the group that it has not found some time before.
* Two servers are compared by `SameUpToIds`: AUTO_INCREMENT numbers the user and backup rows of
  different users in the order of the inserts, whatever the order of the calls.
* `Attached` holds of every server that can be reached (`attached_reachable`).

Results:
* `Sim.keep`: a safe step keeps the simulation of a serial run.
* `SameUpToIds.users_iff`: what the comparison of two servers says of the rows.
* **`linearized_of_safe`**: logins whose steps are all safe have answered, and left the server, as
  in some sequential order.
* `races_lost`: two first logins of one user from two ips both get a token, and of two first logins
  into a new group one fails.
-/

namespace GradidoConnector.LoginSteps

open GradidoConnector.Base GradidoConnector.Base.Act GradidoConnector.SessionManager

/-! ## Schedules -/

variable {T : Type} [DecidableEq T] {q : Collation}

/-- The server and the calls on it. -/
abbrev Calls (q : Collation) (T : Type) := Threads T (SessionManager (.mysql q)) Phase

def start (s : SessionManager (.mysql q)) : Calls q T := ⟨s, fun _ => .called⟩

section Machine

variable (cfg : Config) (calls : T → Login)

/-- One step of the call `t`. -/
def stepOf (t : T) (_ : Unit) (s : SessionManager (.mysql q)) (p : Phase) :
    Option (SessionManager (.mysql q) × Phase) :=
  next cfg (calls t) s p

/-- The calls as a schedule lets them make their steps. -/
def run (s : SessionManager (.mysql q)) (schedule : List T) : Calls q T :=
  final (Threads.step (stepOf cfg calls)) (start s) (schedule.map fun t => (t, ()))

/-- One call as a whole. -/
def whole (s : SessionManager (.mysql q)) (t : T) : Output × SessionManager (.mysql q) :=
  SessionManager.step cfg s (.login (calls t))

end Machine

section Simulation

variable (cfg : Config) (calls : T → Login) (s₀ : SessionManager (.mysql q))

/-- The server after the calls of `order`, one after another. -/
abbrev serial (order : List T) : SessionManager (.mysql q) := final (whole cfg calls) s₀ order

/-- A call that has found no session would find none in the serial run either, and the serial server
holds for its user what the server holds. -/
def Looked (order : List T) (d : SessionManager (.mysql q)) (name : String) : Prop :=
  (view (serial cfg calls s₀ order) name).live cfg name = none ∧
    (view (serial cfg calls s₀ order) name).touched cfg name = view d name

/-- How the call `t`, in its phase on the server `d`, stands to the serial run of `order`. A call
takes effect with the step that settles its group, and from then on is in `order` with the answer it
is going to give. -/
inductive Status (order : List T) (d : SessionManager (.mysql q)) (t : T) : Phase → Prop
  | called (hmem : t ∉ order) : Status order d t .called
  | missed (hmem : t ∉ order) (hlooked : Looked cfg calls s₀ order d (calls t).userName) :
      Status order d t .missed
  | noGroup (hmem : t ∉ order) (hlooked : Looked cfg calls s₀ order d (calls t).userName)
      (hfaults : ∀ op ∈ [Operation.deriveKey, .connect, .loadGroup], (calls t).env.fault op = none) :
      Status order d t .noGroup
  | settled (p : Phase) (a : View) (r : Except Exn String)
      (hfits : Fits d.db (calls t).userName p)
      (hout : (view d (calls t).userName).outcome cfg (calls t) p = some (a, r))
      (hlog : Logged (whole cfg calls) s₀ order t (ofToken r))
      (hview : p.inFlight = true → view (serial cfg calls s₀ order) (calls t).userName = a) :
      Status order d t p

/-- The server with its calls simulates the serial run of `order`. -/
structure Sim (order : List T) (c : Calls q T) : Prop where
  nodup : order.Nodup
  distinct : ∀ t u, (c.phase t).inFlight = true → (c.phase u).inFlight = true →
    q.same (calls t).userName (calls u).userName = true → t = u
  groups : (serial cfg calls s₀ order).db.groups = c.shared.db.groups
  attached : Attached c.shared.db
  serial_attached : Attached (serial cfg calls s₀ order).db
  idle : ∀ name, (∀ t, (c.phase t).inFlight = true → q.same (calls t).userName name = false) →
    view (serial cfg calls s₀ order) name = view c.shared name
  status : ∀ t, Status cfg calls s₀ order c.shared t (c.phase t)

end Simulation

/-- No other call of the user of `t` is in flight. -/
def Solo (calls : T → Login) (c : Calls q T) (t : T) : Prop :=
  ∀ u ≠ t, (c.phase u).inFlight = true → q.same (calls u).userName (calls t).userName = false

/-- Neither window of a call is entered while another call has it open: no call looks for a session
while one of the same user, in whatever spelling, has found none and not yet answered, and when a
call inserts the group it has not found, its alias still matches no group. -/
structure Safe (calls : T → Login) (c : Calls q T) (t : T) : Prop where
  lookup : c.phase t = .called → ∀ u, (c.phase u).inFlight = true →
    q.same (calls u).userName (calls t).userName = false
  insert : c.phase t = .noGroup → groupsLike (calls t).groupAlias c.shared.db = []

section Simulation

variable {cfg : Config} {calls : T → Login} {s₀ s' : SessionManager (.mysql q)} {order order' : List T}
  {c : Calls q T} {d : SessionManager (.mysql q)} {t u : T} {p p' : Phase}

omit [DecidableEq T] in
/-- The status of a call whose user is not concerned by a step of another call. -/
theorem Status.frame (h : Status cfg calls s₀ order d u p) (hmem : u ∉ order → u ∉ order')
    (hlog : ∀ r, Logged (whole cfg calls) s₀ order u r → Logged (whole cfg calls) s₀ order' u r)
    (hrows : ∀ r ∈ d.db.users.rows, r ∈ s'.db.users.rows)
    (hview : p.inFlight = true → view s' (calls u).userName = view d (calls u).userName)
    (hserial : p.inFlight = true → view (serial cfg calls s₀ order') (calls u).userName =
      view (serial cfg calls s₀ order) (calls u).userName) :
    Status cfg calls s₀ order' s' u p := by
  have hlooked : p.inFlight = true → Looked cfg calls s₀ order d (calls u).userName →
      Looked cfg calls s₀ order' s' (calls u).userName := by
    intro hp hl
    unfold Looked
    rw [hview hp, hserial hp]
    exact hl
  cases h with
  | called hm => exact .called (hmem hm)
  | missed hm hl => exact .missed (hmem hm) (hlooked rfl hl)
  | noGroup hm hl hsearch => exact .noGroup (hmem hm) (hlooked rfl hl) hsearch
  | settled _ a r hfits hout hl hv =>
    by_cases hp : p.inFlight = true
    · refine .settled p a r (hfits.mono hrows) ?_ (hlog _ hl) fun _ => (hserial hp).trans (hv hp)
      rw [hview hp]
      exact hout
    · obtain ⟨-, rfl⟩ := View.of_idle hout (Bool.eq_false_iff.mpr hp)
      exact .settled _ _ _ trivial rfl (hlog _ hl) fun h => absurd h hp

/-- The simulation after a step of `t` that concerns its own user only. -/
theorem Sim.moved (h : Sim cfg calls s₀ order c)
    (hsolo : Solo calls c t)
    (hnodup : order'.Nodup) (hmem : ∀ u ≠ t, u ∉ order → u ∉ order')
    (hlog : ∀ u r, Logged (whole cfg calls) s₀ order u r → Logged (whole cfg calls) s₀ order' u r)
    (hrows : ∀ r ∈ c.shared.db.users.rows, r ∈ s'.db.users.rows)
    (hgroups : (serial cfg calls s₀ order').db.groups = s'.db.groups) (hatt : Attached s'.db)
    (hatt' : Attached (serial cfg calls s₀ order').db)
    (hview : ∀ name, q.same name (calls t).userName = false → view s' name = view c.shared name)
    (hserial : ∀ name, q.same name (calls t).userName = false →
      view (serial cfg calls s₀ order') name = view (serial cfg calls s₀ order) name)
    (hidle : p'.inFlight = false →
      view (serial cfg calls s₀ order') (calls t).userName = view s' (calls t).userName)
    (hstatus : Status cfg calls s₀ order' s' t p') : Sim cfg calls s₀ order' (c.moved t s' p') where
  nodup := hnodup
  distinct := by
    intro u v hu hv hname
    by_cases hut : u = t <;> by_cases hvt : v = t
    · rw [hut, hvt]
    · subst hut
      rw [Threads.moved_phase_of_ne hvt] at hv
      exact absurd ((hsolo v hvt hv).symm.trans (Collation.same_symm hname)) Bool.false_ne_true
    · subst hvt
      rw [Threads.moved_phase_of_ne hut] at hu
      exact absurd ((hsolo u hut hu).symm.trans hname) Bool.false_ne_true
    · rw [Threads.moved_phase_of_ne hut] at hu
      rw [Threads.moved_phase_of_ne hvt] at hv
      exact h.distinct u v hu hv hname
  groups := hgroups
  attached := hatt
  serial_attached := hatt'
  idle := by
    intro name hname
    cases hn : q.same name (calls t).userName with
    | true =>
      refine ((view_congr _ hn).trans (hidle ?_)).trans (view_congr _ hn).symm
      cases hp : p'.inFlight with
      | false => rfl
      | true =>
        have hother := hname t (by rw [Threads.moved_phase_self]; exact hp)
        exact absurd (hother.symm.trans (Collation.same_symm hn)) Bool.false_ne_true
    | false =>
      rw [Threads.moved_shared, hview name hn, hserial name hn]
      refine h.idle name fun u hu => ?_
      by_cases hut : u = t
      · rw [hut, Collation.same_comm, hn]
      · exact hname u (by rw [Threads.moved_phase_of_ne hut]; exact hu)
  status := by
    intro u
    by_cases hut : u = t
    · subst hut
      rw [Threads.moved_phase_self]
      exact hstatus
    · rw [Threads.moved_phase_of_ne hut]
      exact (h.status u).frame (hmem u hut) (hlog u) hrows
        (fun hu => hview _ (hsolo u hut hu)) fun hu => hserial _ (hsolo u hut hu)

/-- A step of `t` that adds nothing to the serial run. -/
theorem Sim.silent (h : Sim cfg calls s₀ order c)
    (hsolo : Solo calls c t)
    (hfits : Fits c.shared.db (calls t).userName p) (hgroup : p ≠ .noGroup)
    (hidle : (after cfg (calls t) (c.shared, p)).2.inFlight = false →
      view (serial cfg calls s₀ order) (calls t).userName =
        view (after cfg (calls t) (c.shared, p)).1 (calls t).userName)
    (hstatus : Status cfg calls s₀ order (after cfg (calls t) (c.shared, p)).1 t
      (after cfg (calls t) (c.shared, p)).2) :
    Sim cfg calls s₀ order
      (c.moved t (after cfg (calls t) (c.shared, p)).1 (after cfg (calls t) (c.shared, p)).2) := by
  have hwrites := writes_after cfg (calls t) c.shared p
  refine h.moved hsolo h.nodup (fun _ _ hm => hm) (fun _ _ hl => hl) hwrites.users_mem ?_
    (attached_after h.attached hfits) h.serial_attached
    (fun name hne => view_after_of_ne h.attached hfits hne) (fun _ _ => rfl) hidle hstatus
  rw [hwrites.groups_eq hgroup]
  exact h.groups

/-- A step of `t` with which its call takes effect: alone on the serial server, the call comes to
`S` and the same phase. -/
theorem Sim.commit (h : Sim cfg calls s₀ order c)
    (hsolo : Solo calls c t)
    (hfits : Fits c.shared.db (calls t).userName p) (hmem : t ∉ order) {n : Nat}
    {S : SessionManager (.mysql q)}
    (hends : Ends cfg (calls t) n (S, (after cfg (calls t) (c.shared, p)).2)
      (exec (login cfg (calls t)) (serial cfg calls s₀ order)))
    (hself : view S (calls t).userName = view (after cfg (calls t) (c.shared, p)).1 (calls t).userName)
    (hother : ∀ name, q.same name (calls t).userName = false →
      view S name = view (serial cfg calls s₀ order) name)
    (hgroups : S.db.groups = (after cfg (calls t) (c.shared, p)).1.db.groups) (hatt : Attached S.db)
    (hfitsS : Fits S.db (calls t).userName (after cfg (calls t) (c.shared, p)).2) {a : View}
    {r : Except Exn String} (hout : (view S (calls t).userName).outcome cfg (calls t)
      (after cfg (calls t) (c.shared, p)).2 = some (a, r)) :
    Sim cfg calls s₀ (order ++ [t])
      (c.moved t (after cfg (calls t) (c.shared, p)).1 (after cfg (calls t) (c.shared, p)).2) := by
  have hwrites := writes_after cfg (calls t) c.shared p
  obtain ⟨hanswer, hview, hsame, hattS, hotherS⟩ := hends.resolves hatt hfitsS hout
  have hserial : serial cfg calls s₀ (order ++ [t]) =
      (exec (login cfg (calls t)) (serial cfg calls s₀ order)).2 := final_concat ..
  have hlogged : Logged (whole cfg calls) s₀ (order ++ [t]) t (ofToken r) := by
    have hlast := logged_concat (whole cfg calls) s₀ order t
    rwa [← hanswer]
  refine h.moved hsolo (List.nodup_append.mpr ⟨h.nodup, List.nodup_singleton t, ?_⟩)
    (fun u hu hm => ?_) (fun u r hl => hl.concat t) hwrites.users_mem ?_
    (attached_after h.attached hfits) ?_ (fun name hne => view_after_of_ne h.attached hfits hne)
    (fun name hne => ?_) (fun hp => ?_) ?_
  · intro u hu v hv heq
    rw [heq, List.mem_singleton.mp hv] at hu
    exact hmem hu
  · rw [List.mem_append, List.mem_singleton]
    rintro (hin | rfl)
    · exact hm hin
    · exact hu rfl
  · rw [hserial, hsame, hgroups]
  · rw [hserial]
    exact hattS
  · rw [hserial, hotherS name hne]
    exact hother name hne
  · rw [hserial, hview, ← hself]
    exact (View.of_idle hout hp).1
  · refine .settled _ a r (fits_after cfg (calls t) c.shared p) ?_ hlogged fun _ => ?_
    · rw [← hself]
      exact hout
    · rw [hserial, hview]

/-- Before a call the serial server holds for its user what the server holds. -/
theorem Sim.view_of_called (h : Sim cfg calls s₀ order c) (hp : c.phase t = .called)
    (hsolo : Solo calls c t) :
    view (serial cfg calls s₀ order) (calls t).userName = view c.shared (calls t).userName := by
  refine h.idle _ fun u hu => ?_
  by_cases hut : u = t
  · rw [hut, hp] at hu
    cases hu
  · exact hsolo u hut hu

/-- A call that finds a session is answered by it, in the serial run too. -/
theorem Sim.keep_live (h : Sim cfg calls s₀ order c) (hp : c.phase t = .called)
    (hsolo : Solo calls c t) (hmem : t ∉ order) {session : Session}
    (hlive : c.shared.live cfg (calls t).userName = some session) :
    Sim cfg calls s₀ (order ++ [t]) (c.moved t (after cfg (calls t) (c.shared, .called)).1
      (after cfg (calls t) (c.shared, .called)).2) := by
  have hview := h.view_of_called hp hsolo
  have hserial : (serial cfg calls s₀ order).live cfg (calls t).userName = some session := by
    rw [← live_view, hview, live_view, hlive]
  have hnow : (serial cfg calls s₀ order).now = c.shared.now := congrArg View.now hview
  refine h.commit hsolo trivial hmem (n := 0)
    (S := (serial cfg calls s₀ order).touched cfg (calls t).userName) (a := view
      ((serial cfg calls s₀ order).touched cfg (calls t).userName) (calls t).userName)
    (r := loginAnswer cfg (calls t) session c.shared.now) ?_ ?_
    (fun name hne => view_touched_of_ne cfg _ hne) ?_ h.serial_attached ?_ ?_ <;>
    rw [after_of_live hlive]
  · rw [login_of_live hserial, hnow]
    exact ends_answered 0 _
  · rw [view_touched, view_touched, hview]
  · exact h.groups
  · trivial
  · rfl

/-- The serial run comes later to a call that finds none. -/
theorem Sim.keep_miss (h : Sim cfg calls s₀ order c) (hp : c.phase t = .called)
    (hsolo : Solo calls c t) (hmem : t ∉ order) (hlive : c.shared.live cfg (calls t).userName = none) :
    Sim cfg calls s₀ order (c.moved t (after cfg (calls t) (c.shared, .called)).1
      (after cfg (calls t) (c.shared, .called)).2) := by
  have hview := h.view_of_called hp hsolo
  refine h.silent hsolo trivial (by simp) ?_ ?_ <;> rw [after_of_miss hlive]
  · intro hflight
    cases hflight
  · refine .missed hmem ⟨?_, ?_⟩
    · rw [hview, live_view, hlive]
    · rw [hview, view_touched]

/-- The step of a call that settles its group, when the serial server is as far with the call. -/
theorem Sim.settle (h : Sim cfg calls s₀ order c)
    (hsolo : Solo calls c t)
    (hp : p = .missed ∨ p = .noGroup) (hmem : t ∉ order)
    (hlooked : Looked cfg calls s₀ order c.shared (calls t).userName) {n : Nat}
    (hends : Ends cfg (calls t) (n + 1)
      ((serial cfg calls s₀ order).touched cfg (calls t).userName, p)
      (exec (login cfg (calls t)) (serial cfg calls s₀ order)))
    (hfound : (after cfg (calls t) (c.shared, p)).2 ≠ .noGroup) :
    Sim cfg calls s₀ (order ++ [t])
      (c.moved t (after cfg (calls t) (c.shared, p)).1 (after cfg (calls t) (c.shared, p)).2) := by
  have hfits : ∀ {db : Db (.mysql q)}, Fits db (calls t).userName p := by
    intro db
    rcases hp with rfl | rfl <;> trivial
  obtain ⟨hphase, hgroups⟩ := after_search_congr cfg (calls t) hp
    (show ((serial cfg calls s₀ order).touched cfg (calls t).userName).db.groups =
      c.shared.db.groups from h.groups)
  obtain ⟨a, r, hout⟩ := (outcome_after_search cfg (calls t) c.shared hp
    (view (after cfg (calls t)
      ((serial cfg calls s₀ order).touched cfg (calls t).userName, p)).1 (calls t).userName)).resolve_left
    hfound
  refine h.commit hsolo hfits hmem (n := n) ?_ ?_ (fun name hne => ?_) hgroups
    (attached_after h.serial_attached hfits) ?_ hout
  · rw [← hphase]
    exact ends_succ.mp hends
  · rw [view_after_search hp, view_after_search hp, view_touched]
    exact hlooked.2
  · rw [view_after_search hp, view_touched_of_ne cfg _ hne]
  · rw [← hphase]
    exact fits_after cfg (calls t) _ p

omit [DecidableEq T] in
/-- The serial server is as far as a call that has found no session. -/
theorem ends_of_looked {name : String} (hname : name = (calls t).userName)
    (hlooked : Looked cfg calls s₀ order d name) :
    Ends cfg (calls t) 6 ((serial cfg calls s₀ order).touched cfg (calls t).userName, .missed)
      (exec (login cfg (calls t)) (serial cfg calls s₀ order)) := by
  subst hname
  have hlive := hlooked.1
  rw [live_view] at hlive
  rw [← after_of_miss hlive]
  exact ends_succ.mp (ends_called cfg (calls t) _)

theorem Sim.keep_missed (h : Sim cfg calls s₀ order c)
    (hsolo : Solo calls c t)
    (hmem : t ∉ order) (hlooked : Looked cfg calls s₀ order c.shared (calls t).userName) :
    ∃ order', Sim cfg calls s₀ order' (c.moved t (after cfg (calls t) (c.shared, .missed)).1
      (after cfg (calls t) (c.shared, .missed)).2) := by
  by_cases hfound : (after cfg (calls t) (c.shared, .missed)).2 = .noGroup
  · refine ⟨order, h.silent hsolo trivial (by simp) ?_ ?_⟩
    · rw [hfound]
      intro hflight
      cases hflight
    · rw [hfound]
      refine .noGroup hmem ⟨hlooked.1, ?_⟩ ?_
      · rw [view_after_search (Or.inl rfl)]
        exact hlooked.2
      · rw [after_of_tables rfl] at hfound
        rcases hsearch : (exec (searchGroup (calls t)) c.shared.db).1 with e | (_ | gid)
        · rw [hsearch] at hfound
          cases hfound
        · exact (exec_searchGroup_eq_none.mp hsearch).1
        · rw [hsearch] at hfound
          cases hfound
  · exact ⟨_, h.settle hsolo (Or.inl rfl) hmem hlooked (ends_of_looked rfl hlooked) hfound⟩

theorem Sim.keep_noGroup (h : Sim cfg calls s₀ order c)
    (hsolo : Solo calls c t)
    (hmem : t ∉ order) (hlooked : Looked cfg calls s₀ order c.shared (calls t).userName)
    (hfaults : ∀ op ∈ [Operation.deriveKey, .connect, .loadGroup], (calls t).env.fault op = none)
    (hnone : groupsLike (calls t).groupAlias c.shared.db = []) :
    ∃ order', Sim cfg calls s₀ order' (c.moved t (after cfg (calls t) (c.shared, .noGroup)).1
      (after cfg (calls t) (c.shared, .noGroup)).2) := by
  -- the serial server still has no matching group
  have hserial : groupsLike (calls t).groupAlias (serial cfg calls s₀ order).db = [] := by
    unfold groupsLike at hnone ⊢
    rw [h.groups]
    exact hnone
  have hsearch := exec_searchGroup_eq_none.mpr ⟨hfaults, hserial⟩
  have hends := ends_succ.mp (ends_of_looked rfl hlooked)
  rw [after_of_tables rfl, exec_searchGroup rfl, touched_db, hsearch] at hends
  refine ⟨_, h.settle hsolo (Or.inr rfl) hmem hlooked hends ?_⟩
  rw [after_of_tables rfl]
  cases (exec (addGroup (calls t)) c.shared.db).1 <;> simp [leads]

/-- A step of a call that knows its group. -/
theorem Sim.keep_settled (h : Sim cfg calls s₀ order c)
    (hsolo : Solo calls c t)
    (hflight : p.inFlight = true) {a : View} {r : Except Exn String}
    (hfits : Fits c.shared.db (calls t).userName p)
    (hout : (view c.shared (calls t).userName).outcome cfg (calls t) p = some (a, r))
    (hlog : Logged (whole cfg calls) s₀ order t (ofToken r))
    (hview : view (serial cfg calls s₀ order) (calls t).userName = a) :
    Sim cfg calls s₀ order (c.moved t (after cfg (calls t) (c.shared, p)).1
      (after cfg (calls t) (c.shared, p)).2) := by
  have hout' := outcome_after h.attached hfits hout
  refine h.silent hsolo hfits ?_ (fun hidle => ?_)
    (.settled _ a r (fits_after cfg (calls t) c.shared p) hout' hlog fun _ => hview)
  · rintro rfl
    cases hout
  · rw [hview]
    exact (View.of_idle hout' hidle).1

/-- **A safe step keeps the simulation**, for the same serial run or with its call at the end. -/
theorem Sim.keep (h : Sim cfg calls s₀ order c) (hsafe : Safe calls c t)
    (hnext : stepOf cfg calls t () c.shared (c.phase t) = some (s', p')) :
    ∃ order', Sim cfg calls s₀ order' (c.moved t s' p') := by
  obtain ⟨hanswered, rfl, rfl⟩ := of_next hnext
  have hsolo : Solo calls c t := by
    intro u hut hu
    refine Bool.eq_false_iff.mpr fun hname => ?_
    cases hp : c.phase t with
    | called => exact Bool.false_ne_true ((hsafe.lookup hp u hu).symm.trans hname)
    | answered r => exact hanswered r hp
    | _ => exact hut (h.distinct u t hu (by rw [hp]; rfl) hname)
  have hstatus := h.status t
  have hinsert := hsafe.insert
  generalize hp : c.phase t = p at hstatus hanswered hinsert ⊢
  cases hstatus with
  | called hmem =>
    cases hlive : c.shared.live cfg (calls t).userName with
    | some session => exact ⟨_, h.keep_live hp hsolo hmem hlive⟩
    | none => exact ⟨order, h.keep_miss hp hsolo hmem hlive⟩
  | missed hmem hlooked => exact h.keep_missed hsolo hmem hlooked
  | noGroup hmem hlooked hfaults =>
    exact h.keep_noGroup hsolo hmem hlooked hfaults (hinsert rfl)
  | settled _ a r hfits hout hlog hview =>
    cases hflight : p.inFlight with
    | true => exact ⟨order, h.keep_settled hsolo hflight hfits hout hlog (hview hflight)⟩
    | false => exact absurd (View.of_idle hout hflight).2 (hanswered r)

omit [DecidableEq T] in
theorem sim_start (hatt : Attached s₀.db) : Sim cfg calls s₀ [] (start (T := T) s₀) where
  nodup := List.nodup_nil
  distinct := fun t u ht => absurd ht (by simp [start, Phase.inFlight])
  groups := rfl
  attached := hatt
  serial_attached := hatt
  idle := fun _ _ => rfl
  status := fun t => .called List.not_mem_nil

/-- A schedule whose steps are all safe. -/
def AllSafe (cfg : Config) (calls : T → Login) (s : SessionManager (.mysql q)) (schedule : List T) : Prop :=
  ∀ h e, Occurs (history (Threads.step (stepOf cfg calls)) (start s)
    (schedule.map fun t => (t, ()))) h e → Safe calls e.before e.input.1

theorem sim_run (hatt : Attached s₀.db) {schedule : List T} (hsafe : AllSafe cfg calls s₀ schedule) :
    ∃ order, Sim cfg calls s₀ order (run cfg calls s₀ schedule) :=
  Threads.final_threads (I := fun c => ∃ order, Sim cfg calls s₀ order c)
    (C := fun c m => Safe calls c m.1)
    (fun _ _ _ _ _ ⟨_, hsim⟩ hguard hnext => hsim.keep hguard hnext) ⟨[], sim_start hatt⟩ hsafe

/-- The two servers hold the same, but for the ids of user and backup rows and the order
of the rows. -/
structure SameUpToIds (s s' : SessionManager (.mysql q)) : Prop where
  now : s.now = s'.now
  mActiveSessions : s.mActiveSessions = s'.mActiveSessions
  groups : s.db.groups = s'.db.groups
  /-- Of each name and group, the user row and its backups. -/
  stored : stored s.db = stored s'.db
  attached : Attached s.db ∧ Attached s'.db

theorem SameUpToIds.symm {s s' : SessionManager (.mysql q)} (h : SameUpToIds s s') : SameUpToIds s' s :=
  ⟨h.now.symm, h.mActiveSessions.symm, h.groups.symm, h.stored.symm, h.attached.symm⟩

theorem SameUpToIds.user {s s' : SessionManager (.mysql q)} (h : SameUpToIds s s') {row : Row User}
    (hrow : row ∈ s.db.users.rows) :
    ∃ row' ∈ s'.db.users.rows, (row'.val, backupsOf s'.db row'.id) = (row.val, backupsOf s.db row.id) := by
  have hhead := head?_usersNamed (mem_usersNamed.mpr ⟨hrow, q.same_refl _, rfl⟩)
  have hstored : LoginSteps.stored s'.db row.val.name row.val.groupId =
      some (row.val, backupsOf s.db row.id) := by
    rw [← h.stored, LoginSteps.stored, hhead]
    rfl
  obtain ⟨row', hhead', heq⟩ := Option.map_eq_some_iff.mp hstored
  exact ⟨row', (mem_usersNamed.mp (List.mem_of_head? hhead')).1, heq⟩

/-- The two servers have the same user rows, each with the same backups. -/
theorem SameUpToIds.users_iff {s s' : SessionManager (.mysql q)} (h : SameUpToIds s s')
    (user : User × List (Nat × Bytes)) :
    (∃ row ∈ s.db.users.rows, (row.val, backupsOf s.db row.id) = user) ↔
      ∃ row ∈ s'.db.users.rows, (row.val, backupsOf s'.db row.id) = user := by
  constructor
  · rintro ⟨row, hrow, rfl⟩
    exact h.user hrow
  · rintro ⟨row, hrow, rfl⟩
    exact h.symm.user hrow

/-- **Logins whose steps are all safe are linearized.** -/
theorem linearized_of_safe (cfg : Config) (calls : T → Login) (s : SessionManager (.mysql q))
    (hatt : Attached s.db) (schedule : List T) (hsafe : AllSafe cfg calls s schedule)
    (result : T → Except Exn String)
    (hall : ∀ t, (run cfg calls s schedule).phase t = .answered (result t)) :
    Linearized (whole cfg calls) s SameUpToIds (fun t => ofToken (result t))
      (run cfg calls s schedule).shared := by
  obtain ⟨order, hsim⟩ := sim_run hatt hsafe
  refine linearized_of_logged hsim.nodup (fun t => ?_) ?_
  · have hstatus := hsim.status t
    rw [hall t] at hstatus
    cases hstatus with
    | settled _ a r hfits hout hlog =>
      obtain ⟨-, hr⟩ := View.of_idle hout rfl
      rw [Phase.answered.inj hr]
      exact hlog
  · have hview : ∀ name, view (serial cfg calls s order) name =
        view (run cfg calls s schedule).shared name := by
      refine fun name => hsim.idle name fun t ht => ?_
      rw [hall t] at ht
      cases ht
    have hcache : ∀ name, (serial cfg calls s order).mActiveSessions name =
        (run cfg calls s schedule).shared.mActiveSessions name := by
      intro name
      have hslots := congrFun (congrArg View.slots (hview name)) name
      exact spellings_self.symm.trans (hslots.trans spellings_self)
    exact ⟨congrArg View.now (hview ""), funext hcache,
      hsim.groups, funext fun name => congrArg View.stored (hview name), hsim.serial_attached,
      hsim.attached⟩

end Simulation

/-! ## The server at the start -/

theorem attached_empty {b : Backend} : Attached (Db.empty : Db b) :=
  fun _ hb => absurd hb List.not_mem_nil

/-- **Every reachable server has its backups attached.** -/
theorem attached_reachable (cfg : Config) (now : Nat) (inputs : List Input) :
    Attached (final (SessionManager.step cfg)
      (SessionManager.start now (Db.empty : Db (.mysql q))) inputs).db := by
  refine final_invariant (I := fun _ (s : SessionManager (.mysql q)) => Attached s.db)
    (C := fun _ _ => True) attached_empty ?_
    fun _ _ _ => trivial
  intro h s i hatt _
  rcases step_db cfg s i with hsame | ⟨call, rfl, -, -⟩
  · rw [hsame]
    exact hatt
  · exact ((ends_called cfg call s).invariant
      (R := fun y => Attached y.1.db ∧ Fits y.1.db call.userName y.2)
      (fun y hy => ⟨attached_after hy.1 hy.2, fits_after cfg call y.1 y.2⟩) ⟨hatt, trivial⟩).1

/-! ## Two users in a new group, and two races -/

instance [Fintype T] (calls : T → Login) (c : Calls q T) (t : T) : Decidable (Safe calls c t) :=
  decidable_of_iff
    ((c.phase t = .called → ∀ u, (c.phase u).inFlight = true →
        q.same (calls u).userName (calls t).userName = false) ∧
      (c.phase t = .noGroup → groupsLike (calls t).groupAlias c.shared.db = []))
    ⟨fun h => ⟨h.1, h.2⟩, fun h => ⟨h.1, h.2⟩⟩

/-- A first login in which nothing fails. -/
def firstLogin (userName clientIp : String) : Login :=
  ⟨userName, "secret", "g", clientIp, quietEnv userName⟩

/-- Two first logins of two users into a new group. -/
def oneGroup : Bool → Login
  | true => firstLogin "alice" "1"
  | false => firstLogin "bob" "2"

def freshServer : SessionManager plainMysql := SessionManager.start 0 Db.empty

def tokenOf (userName : String) : String :=
  plainSigner.sign (loginToken plainConfig userName (bytesOf userName).reverse 0)

/-- The steps of the two users alternate, but the second looks for the group when it is there. -/
def alternating : List Bool :=
  [true, false, true, true, false, true, false, false, true, true, false, true, false]

theorem linearized_alternating :
    Linearized (whole plainConfig oneGroup) freshServer SameUpToIds
      (fun t => ofToken (.ok (tokenOf (oneGroup t).userName)))
      (run plainConfig oneGroup freshServer alternating).shared := by
  refine linearized_of_safe plainConfig oneGroup freshServer attached_empty alternating ?_
    (fun t => .ok (tokenOf (oneGroup t).userName)) ?_
  · have hsteps : ∀ e ∈ history (Threads.step (stepOf plainConfig oneGroup)) (start freshServer)
        (alternating.map fun t => (t, ())), Safe oneGroup e.before e.input.1 := by decide
    exact fun h e ho => hsteps e ho.mem
  · rintro (_ | _) <;> rfl

/-- Two first logins of one user from two ips. -/
def oneUser : Bool → Login
  | true => firstLogin "alice" "1"
  | false => firstLogin "alice" "2"

/-- Both calls look for a session before one of them has added its own. -/
def lateLookup : List Bool := [true, false, true, true, true, true, true, true, false, false, false]

/-- Both look for the group before one of them has inserted it. -/
def lateInsert : List Bool := [true, false, true, false, true, false, true, true, true, true]

/-- An order of two calls. -/
theorem bool_order {order : List Bool} (hnodup : order.Nodup) (hmem : ∀ t, t ∈ order) :
    order = [true, false] ∨ order = [false, true] := by
  have hperm : order.Perm [true, false] :=
    (List.perm_ext_iff_of_nodup hnodup (by decide)).mpr fun t => by
      cases t <;> simp [hmem]
  exact List.perm_pair.mp hperm

/-- **Two first logins of one user from two ips both get a token, and of two first logins into a new
group one fails**; in no order of the calls do they answer so, whatever states are compared. -/
theorem races_lost :
    (∃ answer : Bool → Except Exn String,
      (∀ t, (run plainConfig oneUser freshServer lateLookup).phase t = .answered (answer t)) ∧
      (∀ t, ∃ token, answer t = .ok token) ∧
      ∀ same, ¬ Linearized (whole plainConfig oneUser) freshServer same (fun t => ofToken (answer t))
        (run plainConfig oneUser freshServer lateLookup).shared) ∧
    ∃ answer : Bool → Except Exn String,
      (∀ t, (run plainConfig oneGroup freshServer lateInsert).phase t = .answered (answer t)) ∧
      (∃ t, answer t = .error duplicateEntry) ∧
      ∀ same, ¬ Linearized (whole plainConfig oneGroup) freshServer same
        (fun t => ofToken (answer t)) (run plainConfig oneGroup freshServer lateInsert).shared := by
  constructor
  · refine ⟨fun _ => .ok (tokenOf "alice"), by rintro (_ | _) <;> rfl, fun _ => ⟨_, rfl⟩, ?_⟩
    rintro same ⟨order, hnodup, hmem, hout, -⟩
    rcases bool_order hnodup hmem with rfl | rfl
    · exact absurd hout (by decide)
    · exact absurd hout (by decide)
  · refine ⟨fun t => if t then .ok (tokenOf "alice") else .error duplicateEntry,
      by rintro (_ | _) <;> rfl, ⟨false, rfl⟩, ?_⟩
    rintro same ⟨order, hnodup, hmem, hout, -⟩
    rcases bool_order hnodup hmem with rfl | rfl
    · exact absurd hout (by decide)
    · exact absurd hout (by decide)

end GradidoConnector.LoginSteps
