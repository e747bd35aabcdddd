import InverseArena.Backend.Auth.Sessions

/-!
# Is revoke-all complete?

`revokeAllSessions` reads the set of a wallet, deletes the sessions it has read and the
set, and revokes the refresh tokens. A session is registered in two steps, its key and
its place in the set. If the second one falls behind the reading, the session stays.

The sessions are deleted in a pipeline, whose results are not looked at: those whose
deletion Redis refuses stay as well.

Results:
* `revocation_complete`: what the calls that were started before return is not accepted
  any more, in every run in which no deletion of a pipeline is refused, and no session is
  added to the set of a wallet while the sessions of the wallet are being deleted, or
  after a revoke-all that its call precedes has deleted them.
* `not_revocation_complete`: a login that is overtaken by a revoke-all.
-/

namespace InverseArena.Backend.Auth

open Async Transition Holdings

/-! ## Pipelines -/

/-- The sessions that a pipeline was to delete and has not. -/
def undeleted : (q : AuthRequest) → AuthAnswer q → List String
  | .execDeletes jtis _, executed => jtis.filter (· ∉ executed.jtis)
  | _, _ => []

/-- A pipeline has deleted the set of the wallet. -/
def setDeleted : (q : AuthRequest) → AuthAnswer q → Bool
  | .execDeletes _ _, executed => executed.wallet
  | _, _ => false

theorem mem_of_undeleted {jtis : List String} {walletAddress : String} {executed : Executed}
    (h : undeleted (.execDeletes jtis walletAddress) executed = []) :
    ∀ jti ∈ jtis, jti ∈ executed.jtis := by
  intro jti hjti
  have hkept := List.filter_eq_nil_iff.mp h jti hjti
  simpa using hkept

/-! ## The invariant -/

/-- A session that is registered is in the set of its wallet as long as its key is there,
    those who delete sessions have read them, and what has been deleted stays so. `before`
    orders the calls by their starts, and `after` tells which calls had returned when
    another one was started. -/
structure Tracked (before after : ℕ → ℕ → Prop) (s : AuthStore) (gs : ℕ → Option Place) :
    Prop where
  member : ∀ {i jti wallet}, Held Place.registers gs i (jti, wallet) →
    s.jtiKeys jti ≠ none → jti ∈ s.walletSets wallet
  reading : ∀ {i j jti wallet jtis}, Held Place.reads gs j (wallet, jtis) →
    Held Place.registers gs i (jti, wallet) → s.jtiKeys jti ≠ none → jti ∈ jtis
  cleared : ∀ {i r jti wallet}, Held Place.clears gs r wallet → before i r →
    Held Place.registers gs i (jti, wallet) → s.jtiKeys jti = none
  unseen : ∀ {i r j jti wallet}, after r j → Held Place.clears gs r wallet → before i r →
    Held Place.registers gs i (jti, wallet) → ¬ Held Place.sees gs j jti

namespace Tracked

variable {before before' after after' : ℕ → ℕ → Prop} {s s' : AuthStore}
variable {gs gs' : ℕ → Option Place} {i : ℕ} {g g' : Place} {jti walletAddress : String}

theorem nobody : Tracked before after s fun _ => none where
  member h := absurd h not_held_nobody
  reading h := absurd h not_held_nobody
  cleared h := absurd h not_held_nobody
  unseen _ h := absurd h not_held_nobody

/-- Sessions go, and the calls know no more than before. -/
theorem of_noMore (h : Tracked before after s gs) (hle : NoMore gs' gs)
    (hkeys : ∀ jti, s'.jtiKeys jti ≠ none → s.jtiKeys jti ≠ none)
    (hsets : ∀ {i jti wallet}, Held Place.registers gs i (jti, wallet) → s'.jtiKeys jti ≠ none →
      jti ∈ s.walletSets wallet → jti ∈ s'.walletSets wallet) : Tracked before after s' gs' where
  member hi hkey := hsets (hle.registers hi) hkey (h.member (hle.registers hi) (hkeys _ hkey))
  reading hj hi hkey := h.reading (hle.reads hj) (hle.registers hi) (hkeys _ hkey)
  cleared := by
    intro i r jti wallet hr hbefore hi
    by_contra hkey
    exact hkeys jti hkey (h.cleared (hle.clears hr) hbefore (hle.registers hi))
  unseen hafter hr hbefore hi hj :=
    h.unseen hafter (hle.clears hr) hbefore (hle.registers hi) (hle.sees hj)

/-- Calls that are started later change nothing about those before. -/
theorem of_order (h : Tracked before after s gs)
    (hbefore : ∀ {i r wallet}, Held Place.clears gs r wallet → before' i r → before i r)
    (hafter : ∀ {r j jti}, Held Place.sees gs j jti → after' r j → after r j) :
    Tracked before' after' s gs where
  member := h.member
  reading := h.reading
  cleared hr hir hi := h.cleared hr (hbefore hr hir) hi
  unseen hrj hr hir hi hj := h.unseen (hafter hj hrj) hr (hbefore hr hir) hi hj

/-- A call learns what becomes of the sessions that are registered. -/
theorem extend (h : Tracked before after s gs) (hi : gs i = some g)
    (hregistered : g'.registered = g.registered)
    (hsees : ∀ jti, g'.sees jti → g.sees jti ∨ s.jtiKeys jti ≠ none)
    (hreads : ∀ members, g'.reads members → g.reads members ∨ ∀ {j jti},
      Held Place.registers gs j (jti, members.1) → s.jtiKeys jti ≠ none → jti ∈ members.2)
    (hclears : ∀ wallet, g'.clears wallet → g.clears wallet ∨ (∀ {j jti},
      Held Place.registers gs j (jti, wallet) → s.jtiKeys jti = none) ∧ ∀ j, ¬ after i j) :
    Tracked before after s (Function.update gs i (some g')) := by
  have hregister : ∀ {j b}, Held Place.registers (Function.update gs i (some g')) j b →
      Held Place.registers gs j b := by
    refine fun hj => held_of_moved hi hj fun b hb => ?_
    unfold Place.registers at hb ⊢
    exact hregistered ▸ hb
  exact
    { member := fun hj hkey => h.member (hregister hj) hkey
      reading := by
        intro k j jti wallet jtis hj hk hkey
        rcases held_of_grown hi hj hreads with hj | ⟨-, hnew⟩
        · exact h.reading hj (hregister hk) hkey
        · exact hnew (hregister hk) hkey
      cleared := by
        intro k r jti wallet hr hbefore hk
        rcases held_of_grown hi hr hclears with hr | ⟨-, hnew, -⟩
        · exact h.cleared hr hbefore (hregister hk)
        · exact hnew (hregister hk)
      unseen := by
        intro k r j jti wallet hafter hr hbefore hk hj
        rcases held_of_grown hi hr hclears with hr | ⟨rfl, -, hlast⟩
        · rcases held_of_grown hi hj hsees with hj | ⟨-, hkey⟩
          · exact h.unseen hafter hr hbefore (hregister hk) hj
          · exact hkey (h.cleared hr hbefore (hregister hk))
        · exact hlast j hafter }

/-- A call that learns nothing of that. -/
theorem stay (h : Tracked before after s gs) (hi : gs i = some g)
    (hregistered : g'.registered = g.registered) (hsees : ∀ jti, g'.sees jti → g.sees jti)
    (hreads : ∀ members, g'.reads members → g.reads members)
    (hclears : ∀ wallet, g'.clears wallet → g.clears wallet) :
    Tracked before after s (Function.update gs i (some g')) :=
  h.extend hi hregistered (fun _ hb => .inl (hsees _ hb)) (fun _ hb => .inl (hreads _ hb))
    fun _ hb => .inl (hclears _ hb)

/-- The key of a session is set that is not known. -/
theorem set (h : Tracked before after s gs) (hi : gs i = some g) (hfree : ¬ Known s gs jti)
    (walletAddress : String) (ttl : ℕ) :
    Tracked before after (s.setSession jti walletAddress ttl) (Function.update gs i
      (some { g with pending := g.pending.erase jti, half := some (jti, walletAddress) })) := by
  have hregister : ∀ {j b}, Held Place.registers (Function.update gs i
      (some { g with pending := g.pending.erase jti, half := some (jti, walletAddress) })) j b →
        Held Place.registers gs j b := fun hj => held_of_moved hi hj fun _ hb => hb
  have hkey : ∀ {j b wallet}, Held Place.registers gs j (b, wallet) →
      (s.setSession jti walletAddress ttl).jtiKeys b = s.jtiKeys b := by
    rintro j b wallet ⟨g', hj, hb⟩
    refine s.setSession_of_ne walletAddress ttl ?_
    rintro rfl
    exact hfree (.inr ⟨j, g', hj, .inr (.inl ⟨wallet, hb⟩)⟩)
  exact
    { member := by
        intro j b wallet hj hb
        rw [hkey (hregister hj)] at hb
        exact h.member (hregister hj) hb
      reading := by
        intro k j b wallet jtis hj hk hb
        rw [hkey (hregister hk)] at hb
        exact h.reading (held_of_moved hi hj fun _ hb => hb) (hregister hk) hb
      cleared := by
        intro k r b wallet hr hbefore hk
        rw [hkey (hregister hk)]
        exact h.cleared (held_of_moved hi hr fun _ hb => hb) hbefore (hregister hk)
      unseen := fun hafter hr hbefore hk hj =>
        h.unseen hafter (held_of_moved hi hr fun _ hb => hb) hbefore (hregister hk)
          (held_of_moved hi hj fun _ hb => hb) }

/-- A session is registered, while nobody deletes the sessions of its wallet, and no
    revoke-all that its call precedes has deleted them. -/
theorem register (h : Tracked before after s gs) (hi : gs i = some g)
    (hmember : jti ∈ s.walletSets walletAddress)
    (hquiet : ∀ j jtis, ¬ Held Place.reads gs j (walletAddress, jtis))
    (hlate : ∀ r, before i r → ¬ Held Place.clears gs r walletAddress) :
    Tracked before after s (Function.update gs i
      (some { g with half := none, registered := (jti, walletAddress) :: g.registered })) := by
  have hregister : ∀ {j b}, Held Place.registers (Function.update gs i (some
      { g with half := none, registered := (jti, walletAddress) :: g.registered })) j b →
        Held Place.registers gs j b ∨ j = i ∧ b = (jti, walletAddress) := by
    have hmore : ∀ b, Place.registers
        { g with half := none, registered := (jti, walletAddress) :: g.registered } b →
          g.registers b ∨ b = (jti, walletAddress) := fun b hb => (List.mem_cons.mp hb).symm
    intro j b hj
    exact held_of_grown hi hj hmore
  exact
    { member := by
        intro j b wallet hj hb
        rcases hregister hj with hj | ⟨-, heq⟩
        · exact h.member hj hb
        · cases heq
          exact hmember
      reading := by
        intro k j b wallet jtis hj hk hb
        have hj' : Held Place.reads gs j (wallet, jtis) := held_of_moved hi hj fun _ hb => hb
        rcases hregister hk with hk | ⟨-, heq⟩
        · exact h.reading hj' hk hb
        · cases heq
          exact absurd hj' (hquiet j jtis)
      cleared := by
        intro k r b wallet hr hbefore hk
        have hr' : Held Place.clears gs r wallet := held_of_moved hi hr fun _ hb => hb
        rcases hregister hk with hk | ⟨rfl, heq⟩
        · exact h.cleared hr' hbefore hk
        · cases heq
          exact absurd hr' (hlate r hbefore)
      unseen := by
        intro k r j b wallet hafter hr hbefore hk hj
        have hr' : Held Place.clears gs r wallet := held_of_moved hi hr fun _ hb => hb
        rcases hregister hk with hk | ⟨rfl, heq⟩
        · exact h.unseen hafter hr' hbefore hk (held_of_moved hi hj fun _ hb => hb)
        · cases heq
          exact absurd hr' (hlate r hbefore) }

/-! ## Steps -/

/-- A call ends, or is started. -/
theorem drop (h : Tracked before after s gs) (i : ℕ) (o : Option Place)
    (ho : ∀ g ∈ o, ∃ call, g = .first call) : Tracked before after s (Function.update gs i o) :=
  h.of_noMore (.nothing ho) (fun _ hkey => hkey) fun _ _ hmem => hmem

/-- The set of a wallet is deleted after the sessions that have been read from it. -/
theorem clear (h : Tracked before after s gs) {jtis deleted : List String}
    (hi : Held Place.reads gs i (walletAddress, jtis)) (hall : ∀ jti ∈ jtis, jti ∈ deleted) :
    Tracked before after ((s.delSessions deleted).setWallet walletAddress []) gs := by
  refine h.of_noMore (.refl gs) (fun jti hjti => (AuthStore.delSessions_ne_none.mp hjti).2) ?_
  intro j jti wallet hj hjti hmem
  obtain ⟨hnot, hold⟩ := AuthStore.delSessions_ne_none.mp hjti
  by_cases hwallet : wallet = walletAddress
  · subst hwallet
    exact absurd (hall _ (h.reading hi hj hold)) hnot
  · rw [AuthStore.setWallet_of_ne _ _ hwallet]
    exact hmem

/-- What a request does to the sessions that are there. -/
theorem stored {lib : Libraries} {env : Environment} {q : AuthRequest} {a : AuthAnswer q}
    (h : Tracked before after s gs) (hnumbers : Numbers s gs) (hi : gs i = some g)
    (hallowed : g.allows lib env q) (hserves : authServer.serves i q s a s')
    (hset : ∀ jti wallet ttl, q ≠ .set jti wallet ttl)
    (hall : setDeleted q a = true → undeleted q a = []) : Tracked before after s' gs := by
  by_cases hq : changesSessions q = true
  · cases q with
    | random =>
      obtain ⟨-, -, rfl⟩ := hserves
      exact h.of_noMore (.refl gs) (fun _ hkey => hkey) fun _ _ hmem => hmem
    | set jti walletAddress ttl => exact absurd rfl (hset jti walletAddress ttl)
    | sadd walletAddress jti =>
      cases hserves
      refine h.of_noMore (.refl gs) (fun _ hkey => hkey) ?_
      intro j jti' wallet _ _ hmem
      by_cases hwallet : wallet = walletAddress
      · subst hwallet
        rw [AuthStore.setWallet_self]
        exact List.mem_union_iff.mpr (.inl hmem)
      · rw [AuthStore.setWallet_of_ne _ _ hwallet]
        exact hmem
    | del jti =>
      cases hserves
      exact h.of_noMore (.refl gs) (fun _ hkey => (AuthStore.delSessions_ne_none.mp hkey).2)
        fun _ _ hmem => hmem
    | srem walletAddress jti =>
      cases hserves
      have hnone : s.jtiKeys jti = none :=
        hnumbers.removed ((held_of_eq hi).mpr ⟨⟨walletAddress, hallowed.1⟩, hallowed.2⟩)
      refine h.of_noMore (.refl gs) (fun _ hkey => hkey) ?_
      intro j jti' wallet _ hkey hmem
      by_cases hwallet : wallet = walletAddress
      · subst hwallet
        rw [AuthStore.setWallet_self]
        refine List.mem_filter.mpr ⟨hmem, decide_eq_true ?_⟩
        rintro rfl
        exact hkey hnone
      · rw [AuthStore.setWallet_of_ne _ _ hwallet]
        exact hmem
    | delWallet walletAddress =>
      cases hserves
      have hclear := h.clear ((held_of_eq hi).mpr hallowed) fun _ hjti => hjti
      exact hclear.of_noMore (.refl gs)
        (by simp [AuthStore.delSessions, AuthStore.setWallet]) fun _ _ hmem => hmem
    | execDeletes jtis walletAddress =>
      obtain ⟨-, rfl⟩ := hserves
      by_cases hwallet : Executed.wallet a = true
      · rw [AuthStore.execute_of_wallet _ _ hwallet]
        exact h.clear ((held_of_eq hi).mpr hallowed) (mem_of_undeleted (hall hwallet))
      · rw [AuthStore.execute_of_not_wallet _ _ hwallet]
        exact h.of_noMore (.refl gs) (fun _ hkey => (AuthStore.delSessions_ne_none.mp hkey).2)
          fun _ _ hmem => hmem
    | _ => cases hq
  · obtain ⟨hkeys, hsets, -⟩ := sessions_of_serves hserves hq
    refine h.of_noMore (.refl gs) ?_ ?_
    · rw [hkeys]
      exact fun _ hkey => hkey
    · rw [hsets]
      exact fun _ _ hmem => hmem

/-- What is left of the sessions of a wallet after they have been deleted. -/
theorem none_of_reads (h : Tracked before after s gs) {jtis deleted : List String}
    (hi : Held Place.reads gs i (walletAddress, jtis)) (hall : ∀ jti ∈ jtis, jti ∈ deleted)
    {j : ℕ} (hj : Held Place.registers gs j (jti, walletAddress)) :
    (s.delSessions deleted).jtiKeys jti = none := by
  by_contra hkey
  obtain ⟨hnot, hold⟩ := AuthStore.delSessions_ne_none.mp hkey
  exact hnot (hall _ (h.reading hi hj hold))

/-- A call has deleted the sessions of a wallet. -/
theorem finish (h : Tracked before after s gs) (hi : gs i = some g)
    (hnone : ∀ {j jti}, Held Place.registers gs j (jti, walletAddress) → s.jtiKeys jti = none)
    (hlast : ∀ j, ¬ after i j) :
    Tracked before after s
      (Function.update gs i (some { g with reading := none, cleared := some walletAddress })) := by
  refine h.extend hi rfl (fun _ => .inl) ?_ ?_
  · rintro _ ⟨⟩
  · rintro _ ⟨⟩
    exact .inr ⟨hnone, hlast⟩

/-- A request that is fulfilled. -/
theorem ok {lib : Libraries} {env : Environment} {q : AuthRequest} {a : AuthAnswer q}
    (h : Tracked before after s gs) (hnumbers : Numbers s gs) (hi : gs i = some g)
    (hallowed : g.allows lib env q) (hserves : authServer.serves i q s a s')
    (hadd : ∀ wallet jti, q = .sadd wallet jti → (∀ j jtis, ¬ Held Place.reads gs j (wallet, jtis)) ∧
      ∀ r, before i r → ¬ Held Place.clears gs r wallet) (hall : undeleted q a = [])
    (hlast : ∀ j, ¬ after i j) :
    Tracked before after s' (Function.update gs i (some (g.after q a))) := by
  by_cases hconcerns : concerns q = true
  · cases q with
    | random =>
      exact (h.stored hnumbers hi hallowed hserves nofun fun _ => hall).stay hi rfl (fun _ hb => hb)
        (fun _ hb => hb) fun _ hb => hb
    | set jti walletAddress ttl =>
      cases hserves
      exact h.set hi (hnumbers.not_known hi hallowed) walletAddress ttl
    | sadd walletAddress jti =>
      have hstored := h.stored hnumbers hi hallowed hserves nofun fun _ => hall
      obtain ⟨hquiet, hlate⟩ := hadd walletAddress jti rfl
      cases hserves
      refine hstored.register hi ?_ hquiet hlate
      rw [AuthStore.setWallet_self]
      exact List.mem_union_iff.mpr (.inr (List.mem_singleton_self jti))
    | get jti =>
      obtain ⟨ha, rfl⟩ := hserves
      cases a with
      | none => exact h.stay hi rfl (fun _ hb => hb) (fun _ hb => hb) fun _ hb => hb
      | some wallet =>
        refine h.extend hi rfl ?_ (fun _ => .inl) fun _ => .inl
        rintro b ⟨wallet', hb⟩
        rcases List.mem_cons.mp hb with heq | hb
        · cases heq
          exact .inr (AuthStore.key_of_session ha.symm)
        · exact .inl ⟨wallet', hb⟩
    | del jti =>
      exact (h.stored hnumbers hi hallowed hserves nofun fun _ => hall).stay hi rfl (fun _ hb => hb)
        (fun _ hb => hb) fun _ hb => hb
    | smembers walletAddress =>
      obtain ⟨ha, rfl⟩ := hserves
      refine h.extend hi rfl (fun _ => .inl) ?_ fun _ => .inl
      rintro _ ⟨⟩
      exact .inr fun hj hkey => ha.symm.subset (h.member hj hkey)
    | delWallet walletAddress =>
      have hreads : Held Place.reads gs i (walletAddress, []) := (held_of_eq hi).mpr hallowed
      have hstored := h.stored hnumbers hi hallowed hserves nofun fun _ => hall
      cases hserves
      refine hstored.finish hi (fun hj => ?_) hlast
      have hnone := h.none_of_reads hreads (fun _ hjti => hjti) hj
      simpa [AuthStore.delSessions, AuthStore.setWallet] using hnone
    | execDeletes jtis walletAddress =>
      have hstored := h.stored hnumbers hi hallowed hserves nofun fun _ => hall
      obtain ⟨-, rfl⟩ := hserves
      refine hstored.finish hi (fun hj => ?_) hlast
      rw [AuthStore.execute_jtiKeys]
      exact h.none_of_reads ((held_of_eq hi).mpr hallowed) (mem_of_undeleted hall) hj
    | _ => cases hconcerns
  · have hset : ∀ jti wallet ttl, q ≠ .set jti wallet ttl := by
      rintro jti wallet ttl rfl
      exact hconcerns rfl
    obtain ⟨call, found, spent, hafter⟩ := Place.eq_of_sessions (Place.after_sessions g a hconcerns)
    rw [hafter]
    exact (h.stored hnumbers hi hallowed hserves hset fun _ => hall).stay hi rfl (fun _ hb => hb)
      (fun _ hb => hb) fun _ hb => hb

/-- A request that is rejected, with or without an effect, ends its call. -/
theorem error {lib : Libraries} {env : Environment} {q : AuthRequest} {a : AuthAnswer q}
    (h : Tracked before after s gs) (hnumbers : Numbers s gs) (hi : gs i = some g)
    (hallowed : g.allows lib env q) (hserves : authServer.serves i q s a s')
    (hall : setDeleted q a = true → undeleted q a = []) (call : AuthCall) :
    Tracked before after s' (Function.update gs i (some (.first call))) := by
  by_cases hset : ∃ jti wallet ttl, q = .set jti wallet ttl
  · obtain ⟨jti, wallet, ttl, rfl⟩ := hset
    cases hserves
    have hdone := (h.set hi (hnumbers.not_known hi hallowed) wallet ttl).drop i
      (some (.first call)) (by rintro g ⟨⟩; exact ⟨call, rfl⟩)
    rw [Function.update_idem] at hdone
    exact hdone
  · have hstored := h.stored hnumbers hi hallowed hserves
      (fun jti wallet ttl hq => hset ⟨jti, wallet, ttl, hq⟩) hall
    exact hstored.drop i _ (by rintro g ⟨⟩; exact ⟨call, rfl⟩)

end Tracked

/-! ## Runs -/

variable (lib : Libraries) (env : Environment)

/-- The wallet whose set a session is added to. -/
def addsTo : AuthRequest → Option String
  | .sadd walletAddress _ => some walletAddress
  | _ => none

/-- A session is added to the set of a wallet only while no call is about to delete the
    sessions of the wallet, and no call that was started later has deleted them. -/
def AddedUndisturbed (tr : List (AuthSystem × AuthEvent)) (t : AuthSystem) (i : ℕ)
    (q : AuthRequest) : Prop :=
  ∀ wallet ∈ addsTo q, ∀ j ∈ started tr,
    ¬ Held Place.deletes (stands lib env tr t) j wallet ∧
      (i ∈ earlier j tr → ¬ Held Place.clears (stands lib env tr t) j wallet)

instance (tr : List (AuthSystem × AuthEvent)) (t : AuthSystem) (i : ℕ) (q : AuthRequest) :
    Decidable (AddedUndisturbed lib env tr t i q) :=
  inferInstanceAs (Decidable (∀ wallet ∈ addsTo q, ∀ j ∈ started tr, _ ∧ (_ → _)))

/-- Sessions are added undisturbed, and no deletion of a pipeline is refused. A pipeline
    that is rejected may be executed in part, as long as it does not delete the set of the
    wallet without all the sessions. -/
def Undisturbed (tr : List (AuthSystem × AuthEvent)) (t : AuthSystem) : AuthEvent → Prop
  | .reply i (.served q a) => AddedUndisturbed lib env tr t i q ∧ undeleted q a = []
  | .reply _ (.lost q a _) => setDeleted q a = true → undeleted q a = []
  | _ => True

instance (tr : List (AuthSystem × AuthEvent)) (t : AuthSystem) :
    (ev : AuthEvent) → Decidable (Undisturbed lib env tr t ev)
  | .reply i (.served q a) =>
    inferInstanceAs (Decidable (AddedUndisturbed lib env tr t i q ∧ undeleted q a = []))
  | .reply _ (.lost q a _) =>
    inferInstanceAs (Decidable (setDeleted q a = true → undeleted q a = []))
  | .reply _ (.refused _ _) => isTrue trivial
  | .start _ _ => isTrue trivial
  | .moved _ => isTrue trivial

/-- What the calls that were started before a revoke-all of a wallet return for that
    wallet is not accepted by any call that was started after it had returned. -/
def RevocationComplete (tr : List (AuthSystem × AuthEvent)) (t : AuthSystem) : Prop :=
  ∀ r i j walletAddress userId pair token payload result,
    inputOf r tr = some (.revokeAllSessions walletAddress userId) →
    i ∈ earlier r tr → t.running i = some (.done (.ok (.tokens pair))) →
    token = pair.accessToken ∨ token = pair.refreshToken →
    Says lib env token payload → payload.wallet = walletAddress →
    returnedBefore r j tr = true →
    inputOf j tr = some (.verifyAccessToken token) ∨ inputOf j tr = some (.refreshTokens token) →
    t.running j ≠ some (.done (.ok result))

section

variable {lib env} {tr : List (AuthSystem × AuthEvent)} {t : AuthSystem} {i : ℕ}
variable (hrun : Run (System.Step (AuthCall.program lib env) authServer) (.idle .empty) tr t)

include hrun

/-- The stores and the calls agree on the sessions in every undisturbed run. -/
theorem tracked_of_run (hquiet : EachStep (Undisturbed lib env) tr) :
    Tracked (fun i r => i ∈ earlier r tr) (fun r j => returnedBefore r j tr = true) t.shared
      (stands lib env tr t) := by
  refine standing_of_history (I := fun tr => Tracked (fun i r => i ∈ earlier r tr)
    fun r j => returnedBefore r j tr = true) (Q := Finished lib env) expected_of_serves
    (program_follows lib env) Tracked.nobody ?_ ?_ ?_ ?_ hrun hquiet
  · intro tr s gs i h
    exact h.drop i none (by rintro g ⟨⟩)
  · intro tr t i c _ h _ _
    refine (h.drop i (some (.first c)) (by rintro g ⟨⟩; exact ⟨c, rfl⟩)).of_order ?_ ?_
    · intro k r wallet hr hbefore
      rwa [earlier_start_of_ne c ?_] at hbefore
      rintro rfl
      obtain ⟨_, ⟨⟩, hclears⟩ := held_update_self.mp hr
      cases hclears
    · intro r j jti hj hafter
      rwa [returnedBefore_start_of_ne c ?_] at hafter
      rintro rfl
      obtain ⟨_, ⟨⟩, wallet, hsees⟩ := held_update_self.mp hj
      cases hsees
  · intro tr t i g r k s' hrun hquiet h hi hstands hallowed hreply
    have hnumbers := numbers_of_run hrun
    cases hreply with
    | served hserves =>
      refine h.ok hnumbers hstands hallowed hserves ?_ hquiet.2 ?_
      · rintro wallet jti rfl
        have hothers := hquiet.1 wallet rfl
        refine ⟨?_, ?_⟩
        · rintro j jtis ⟨g', hg', hreads⟩
          refine (hothers j (mem_started (standing_eq_some hg'))).1 ⟨g', hg', ?_⟩
          exact congrArg (Option.map Prod.fst) hreads
        · rintro r hbefore ⟨g', hg', hclears⟩
          exact (hothers r (mem_started (standing_eq_some hg'))).2 hbefore ⟨g', hg', hclears⟩
      · intro j hreturned
        obtain ⟨result, hresult⟩ :=
          System.exists_of_returned (returned_of_returnedBefore hrun hreturned)
        exact nomatch hi.symm.trans hresult
    | lost hserves => exact h.error hnumbers hstands hallowed hserves hquiet g.call
    | refused => exact h.drop i _ (by rintro g ⟨⟩; exact ⟨_, rfl⟩)
  · rintro tr t ⟨milliseconds⟩ s' h rfl
    exact h.of_noMore (.refl _) (fun _ hkey => hkey) fun _ _ hmem => hmem

end

variable {lib env} in
/-- What a token that has been issued says. -/
theorem says_of_issued {g : Place} {walletAddress token : String} {pair : TokenPair}
    {payload : JwtPayload} (hlib : lib.Lawful) (hissued : Issued lib env g walletAddress pair)
    (htoken : token = pair.accessToken ∨ token = pair.refreshToken)
    (htells : Says lib env token payload) :
    payload.jti ≠ "" ∧ (payload.jti, walletAddress) ∈ g.registered ∧
      payload.wallet = walletAddress := by
  obtain ⟨secret, sub, accessJti, refreshJti, iat, iat', hsecret, haccess, hrefresh, hpair, hpair',
    hregistered, hregistered'⟩ := hissued
  obtain ⟨secret', exp, hsecret', hdecode⟩ := htells
  cases Except.ok.inj (hsecret.symm.trans hsecret')
  rcases htoken with rfl | rfl
  · rw [hpair, hlib.decode_sign] at hdecode
    cases hdecode
    exact ⟨haccess, hregistered, rfl⟩
  · rw [hpair', hlib.decode_sign] at hdecode
    cases hdecode
    exact ⟨hrefresh, hregistered', rfl⟩

/-- Revoke-all is complete in every undisturbed run. -/
theorem revocation_complete (hlib : lib.Lawful) {tr : List (AuthSystem × AuthEvent)}
    {t : AuthSystem}
    (hrun : Run (System.Step (AuthCall.program lib env) authServer) (.idle .empty) tr t)
    (hquiet : EachStep (Undisturbed lib env) tr) : AlongRun (RevocationComplete lib env) tr t := by
  refine hrun.alongRun_of_each ?_ hquiet
  intro tr t hrun hquiet r i j walletAddress userId pair token payload result hr hbefore hi htoken
    htells hwallet hafter hj hresult
  have htracked := tracked_of_run hrun hquiet
  obtain ⟨gi, -, -, hgi, hissues⟩ := returns_of_run hrun hi
  obtain ⟨wallet, hissued⟩ := hissues.issued
  obtain ⟨hjti, hregistered, rfl⟩ := says_of_issued hlib hissued htoken htells
  obtain ⟨rresult, hrresult⟩ := System.exists_of_returned (returned_of_returnedBefore hrun hafter)
  obtain ⟨gr, hrcall, -, hgr, hrevokes⟩ := returns_of_run hrun hrresult
  have hclears : gr.clears payload.wallet := by
    unfold Place.Returns at hrevokes
    rw [← Option.some.inj (hr.symm.trans hrcall)] at hrevokes
    obtain ⟨revokedCount, -, hcleared⟩ := hrevokes
    exact hcleared.trans (congrArg some hwallet.symm)
  obtain ⟨gj, hjcall, -, hgj, haccepts⟩ := returns_of_run hrun hresult
  have hsees : gj.sees payload.jti := by
    unfold Place.Returns at haccepts
    rcases hj with hj | hj
    · rw [← Option.some.inj (hj.symm.trans hjcall)] at haccepts
      obtain ⟨payload', wallet, -, htells', hseen⟩ := haccepts
      cases htells.unique htells'
      exact ⟨wallet, hseen⟩
    · rw [← Option.some.inj (hj.symm.trans hjcall)] at haccepts
      obtain ⟨payload', pair', -, -, htells', hremoved, -⟩ := haccepts
      cases htells.unique htells'
      exact (hremoved hjti).2
  exact htracked.unseen hafter ⟨gr, hgr, hclears⟩ hbefore ⟨gi, hgi, hregistered⟩
    ⟨gj, hgj, hsees⟩

/-! ## A login that is overtaken -/

/-- The call has returned these tokens. -/
def returnedTokens (t : AuthSystem) (i : ℕ) (pair : TokenPair) : Bool :=
  match t.running i with
  | some (.done (.ok (.tokens pair'))) => pair' = pair
  | _ => false

theorem running_of_returnedTokens {t : AuthSystem} {i : ℕ} {pair : TokenPair}
    (h : returnedTokens t i pair = true) : t.running i = some (.done (.ok (.tokens pair))) := by
  unfold returnedTokens at h
  split at h
  · rename_i pair' hi
    rw [hi, of_decide_eq_true h]
  · cases h

/-- A login, and a revoke-all that is started after it; then the tokens of the login are
    presented. The login is served `n` requests before the revoke-all. -/
def revokeAfter (n m : ℕ) : AuthScript :=
  .start 2 (.requestNonce sampleWallet) :: serveNext 2 0 5 ++ .start 0 sampleLogin ::
    serveNext 0 0 n ++ .start 5 (.revokeAllSessions sampleWallet "0-4") :: serveNext 5 0 3 ++
    serveNext 0 n (16 - n) ++ .start 6 (.verifyAccessToken sampleTokens.accessToken) ::
    serveNext 6 0 2 ++ .start 7 (.refreshTokens sampleTokens.refreshToken) :: serveNext 7 0 m

/-- The tokens of a login that a revoke-all overtakes are accepted after it. -/
theorem not_revocation_complete : ∃ tr t,
    Run (System.Step (AuthCall.program sampleLibraries sampleEnvironment) authServer)
      (.idle .empty) tr t ∧ t.returned 6 = true ∧ t.returned 7 = true ∧
      ¬ RevocationComplete sampleLibraries sampleEnvironment tr t := by
  obtain ⟨tr, t, hrun, h6, h7, h0, hinput, hbefore, hafter, hj⟩ : ∃ tr t,
      Run (System.Step (AuthCall.program sampleLibraries sampleEnvironment) authServer)
        (.idle .empty) tr t ∧ t.returned 6 = true ∧ t.returned 7 = true ∧
        returnedTokens t 0 sampleTokens = true ∧
        inputOf 5 tr = some (.revokeAllSessions sampleWallet "0-4") ∧ 0 ∈ earlier 5 tr ∧
        returnedBefore 5 6 tr = true ∧
        inputOf 6 tr = some (.verifyAccessToken sampleTokens.accessToken) := by
    have hreplay : ∃ r ∈ replay (workingAuth.perform
        (AuthCall.program sampleLibraries sampleEnvironment)) (revokeAfter 11 17) []
        (.idle .empty), r.2.returned 6 = true ∧ r.2.returned 7 = true ∧
        returnedTokens r.2 0 sampleTokens = true ∧
        inputOf 5 r.1 = some (.revokeAllSessions sampleWallet "0-4") ∧ 0 ∈ earlier 5 r.1 ∧
        returnedBefore 5 6 r.1 = true ∧
        inputOf 6 r.1 = some (.verifyAccessToken sampleTokens.accessToken) := by
      decide +kernel
    exact exists_run_of_replay workingAuth.perform_step hreplay
  refine ⟨tr, t, hrun, h6, h7, fun h => ?_⟩
  obtain ⟨result, hresult⟩ := System.exists_of_returned h6
  have htells : Says sampleLibraries sampleEnvironment sampleTokens.accessToken
      ⟨"0-4", sampleWallet, .access, "0-5"⟩ :=
    ⟨"0123456789abcdef0123456789abcdef", _, by decide +kernel,
      sampleLibraries_lawful.decode_sign _ _ _ _⟩
  exact h 5 0 6 sampleWallet "0-4" sampleTokens _ _ result hinput hbefore
    (running_of_returnedTokens h0) (.inl rfl) htells rfl hafter (.inl hj) hresult

/-- A login and a revoke-all, one after the other. -/
theorem revocation_complete_sample : ∃ tr t,
    Run (System.Step (AuthCall.program sampleLibraries sampleEnvironment) authServer)
      (.idle .empty) tr t ∧ [0, 5, 6, 7].map t.returned = [true, true, false, false] ∧
      AlongRun (RevocationComplete sampleLibraries sampleEnvironment) tr t := by
  obtain ⟨tr, t, hrun, hreturned, hquiet⟩ : ∃ tr t,
      Run (System.Step (AuthCall.program sampleLibraries sampleEnvironment) authServer)
        (.idle .empty) tr t ∧ [0, 5, 6, 7].map t.returned = [true, true, false, false] ∧
        EachStep (Undisturbed sampleLibraries sampleEnvironment) tr := by
    have hreplay : ∃ r ∈ replay (workingAuth.perform
        (AuthCall.program sampleLibraries sampleEnvironment)) (revokeAfter 16 2) []
        (.idle .empty), [0, 5, 6, 7].map r.2.returned = [true, true, false, false] ∧
        EachStep (Undisturbed sampleLibraries sampleEnvironment) r.1 := by
      decide +kernel
    exact exists_run_of_replay workingAuth.perform_step hreplay
  exact ⟨tr, t, hrun, hreturned, revocation_complete sampleLibraries sampleEnvironment
    sampleLibraries_lawful hrun hquiet⟩

end InverseArena.Backend.Auth
