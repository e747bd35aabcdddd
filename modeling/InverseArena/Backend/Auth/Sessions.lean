import InverseArena.Backend.Auth.Calls
import InverseArena.Library.Holdings

/-!
# Sessions and their numbers

A call draws a number, and sets the key of a session with it. From then on the number
is known, and it is not drawn again; the key may be deleted, but it is not set again.

Results:
* `numbers_of_run`: in every run the numbers that calls have drawn are exclusive, and
  the key of a session that has been seen and deleted is gone.
-/

namespace InverseArena.Backend.Auth

open Async Transition Holdings

/-! ## What calls know of sessions -/

namespace Place

/-- A number that is not a session yet. -/
def draws (g : Place) (jti : String) : Prop := jti ∈ g.pending

/-- A session, and its wallet. -/
def registers (g : Place) (session : String × String) : Prop := session ∈ g.registered

def sees (g : Place) (jti : String) : Prop := ∃ walletAddress, (jti, walletAddress) ∈ g.seen

/-- A session that has been seen, and deleted after that. -/
def removes (g : Place) (jti : String) : Prop := g.sees jti ∧ jti ∈ g.deleted

/-- A session whose key has been set. -/
def knows (g : Place) (jti : String) : Prop :=
  g.half.map (·.1) = some jti ∨ (∃ walletAddress, g.registers (jti, walletAddress)) ∨ g.sees jti

/-- The members that have been read, and are about to be deleted. -/
def reads (g : Place) (members : String × List String) : Prop := g.reading = some members

/-- The sessions of the wallet are about to be deleted. -/
def deletes (g : Place) (walletAddress : String) : Prop :=
  g.reading.map (·.1) = some walletAddress

/-- The sessions of the wallet have been deleted. -/
def clears (g : Place) (walletAddress : String) : Prop := g.cleared = some walletAddress

instance (g : Place) (walletAddress : String) : Decidable (g.deletes walletAddress) :=
  inferInstanceAs (Decidable (_ = _))

instance (g : Place) (walletAddress : String) : Decidable (g.clears walletAddress) :=
  inferInstanceAs (Decidable (_ = _))

variable {call : AuthCall} {jti walletAddress : String}

theorem not_knows_first : ¬ (first call).knows jti := by
  rintro (h | ⟨_, h⟩ | ⟨_, h⟩)
  · cases h
  · cases h
  · cases h

/-- What a call knows of sessions. -/
def sessions (g : Place) : List String × Option (String × String) × List (String × String) ×
    List (String × String) × List String × Option (String × List String) × Option String :=
  (g.pending, g.half, g.registered, g.seen, g.deleted, g.reading, g.cleared)

end Place

/-- The requests after which a call knows more of sessions. -/
def concerns : AuthRequest → Bool
  | .random => true
  | .get _ => true
  | .set _ _ _ => true
  | .sadd _ _ => true
  | .del _ => true
  | .smembers _ => true
  | .delWallet _ => true
  | .execDeletes _ _ => true
  | _ => false

/-- The other requests are not about sessions. -/
theorem Place.after_sessions (g : Place) {q : AuthRequest} (a : AuthAnswer q)
    (h : ¬ concerns q = true) : (g.after q a).sessions = g.sessions := by
  cases q with
  | findNonce walletAddress now =>
    cases a with
    | none => rfl
    | some nonce => rfl
  | findRefreshToken tokenHash =>
    cases a with
    | none => rfl
    | some row =>
      rw [after_findRefreshToken]
      split_ifs
      · rfl
      · rfl
  | findConfirmation tokenHash =>
    cases a with
    | none => rfl
    | some record =>
      rw [after_findConfirmation]
      split_ifs
      · rfl
      · rfl
  | random => exact absurd rfl h
  | get jti => exact absurd rfl h
  | set jti walletAddress ttl => exact absurd rfl h
  | sadd walletAddress jti => exact absurd rfl h
  | del jti => exact absurd rfl h
  | smembers walletAddress => exact absurd rfl h
  | delWallet walletAddress => exact absurd rfl h
  | execDeletes jtis walletAddress => exact absurd rfl h
  | _ => rfl

/-- Then only the credentials of the call have changed. -/
theorem Place.eq_of_sessions {g g' : Place} (h : g'.sessions = g.sessions) :
    ∃ call found spent, g' = { g with call := call, found := found, spent := spent } := by
  obtain ⟨call, pending, half, registered, seen, deleted, found, spent, reading, cleared⟩ := g'
  simp only [Place.sessions, Prod.mk.injEq] at h
  obtain ⟨rfl, rfl, rfl, rfl, rfl, rfl, rfl⟩ := h
  exact ⟨call, found, spent, rfl⟩

/-- The jti is, or has been, that of a session. -/
def Known (s : AuthStore) (gs : ℕ → Option Place) (jti : String) : Prop :=
  s.jtiKeys jti ≠ none ∨ ∃ i, Held Place.knows gs i jti

variable {gs gs' : ℕ → Option Place}

/-- No call knows more than before. -/
structure NoMore (gs' gs : ℕ → Option Place) : Prop where
  draws : ∀ {i b}, Held Place.draws gs' i b → Held Place.draws gs i b
  nodup : (∀ {i g}, gs i = some g → g.pending.Nodup) →
    ∀ {i g}, gs' i = some g → g.pending.Nodup
  registers : ∀ {i b}, Held Place.registers gs' i b → Held Place.registers gs i b
  sees : ∀ {i b}, Held Place.sees gs' i b → Held Place.sees gs i b
  removes : ∀ {i b}, Held Place.removes gs' i b → Held Place.removes gs i b
  knows : ∀ {i b}, Held Place.knows gs' i b → Held Place.knows gs i b
  reads : ∀ {i b}, Held Place.reads gs' i b → Held Place.reads gs i b
  clears : ∀ {i b}, Held Place.clears gs' i b → Held Place.clears gs i b

theorem NoMore.refl (gs : ℕ → Option Place) : NoMore gs gs :=
  ⟨id, id, id, id, id, id, id, id⟩

/-- A call that knows nothing, any more. -/
theorem NoMore.nothing {i : ℕ} {o : Option Place} (ho : ∀ g ∈ o, ∃ call, g = .first call) :
    NoMore (Function.update gs i o) gs := by
  constructor
  case nodup =>
    intro h j g hj
    by_cases hji : j = i
    · subst hji
      rw [Function.update_self] at hj
      obtain ⟨call, rfl⟩ := ho g hj
      exact List.nodup_nil
    · rw [Function.update_of_ne hji] at hj
      exact h hj
  case draws =>
    refine fun h => held_of_update ?_ h
    rintro g hg b hb
    obtain ⟨call, rfl⟩ := ho g hg
    cases hb
  case registers =>
    refine fun h => held_of_update ?_ h
    rintro g hg b hb
    obtain ⟨call, rfl⟩ := ho g hg
    cases hb
  case sees =>
    refine fun h => held_of_update ?_ h
    rintro g hg b ⟨w, hb⟩
    obtain ⟨call, rfl⟩ := ho g hg
    cases hb
  case removes =>
    refine fun h => held_of_update ?_ h
    rintro g hg b ⟨-, hb⟩
    obtain ⟨call, rfl⟩ := ho g hg
    cases hb
  case knows =>
    refine fun h => held_of_update ?_ h
    rintro g hg b hb
    obtain ⟨call, rfl⟩ := ho g hg
    exact absurd hb Place.not_knows_first
  case reads =>
    refine fun h => held_of_update ?_ h
    rintro g hg b hb
    obtain ⟨call, rfl⟩ := ho g hg
    cases hb
  case clears =>
    refine fun h => held_of_update ?_ h
    rintro g hg b hb
    obtain ⟨call, rfl⟩ := ho g hg
    cases hb

/-! ## The invariant -/

/-- The numbers that calls have drawn are exclusive and not those of sessions, and what
    has been seen and deleted is gone. -/
structure Numbers (s : AuthStore) (gs : ℕ → Option Place) : Prop where
  nonempty : "" ∉ s.drawn
  drawn : ∀ {jti}, (∃ i, Held Place.draws gs i jti) ∨ Known s gs jti → jti ∈ s.drawn
  pending : Exclusive Place.draws (Known s gs) gs
  nodup : ∀ {i g}, gs i = some g → g.pending.Nodup
  removed : ∀ {i jti}, Held Place.removes gs i jti → s.jtiKeys jti = none

/-- The requests that change Redis or the numbers that have been drawn. -/
def changesSessions : AuthRequest → Bool
  | .random => true
  | .set _ _ _ => true
  | .sadd _ _ => true
  | .del _ => true
  | .srem _ _ => true
  | .delWallet _ => true
  | .execDeletes _ _ => true
  | _ => false

/-- The other requests leave Redis and the numbers alone. -/
theorem sessions_of_serves {i : ℕ} {q : AuthRequest} {s s' : AuthStore} {a : AuthAnswer q}
    (h : authServer.serves i q s a s') (hq : ¬ changesSessions q = true) :
    s'.jtiKeys = s.jtiKeys ∧ s'.walletSets = s.walletSets ∧ s'.drawn = s.drawn := by
  cases q with
  | now =>
    obtain ⟨-, rfl⟩ := h
    exact ⟨rfl, rfl, rfl⟩
  | retireNonces walletAddress now =>
    cases h
    exact ⟨rfl, rfl, rfl⟩
  | createNonce walletAddress nonce expiresAt =>
    cases h
    exact ⟨rfl, rfl, rfl⟩
  | findNonce walletAddress now =>
    obtain ⟨-, rfl⟩ := h
    exact ⟨rfl, rfl, rfl⟩
  | useNonce id =>
    cases h
    exact ⟨rfl, rfl, rfl⟩
  | upsertUser walletAddress now =>
    have hupserts : Upserts s walletAddress now a s' := h
    unfold Upserts at hupserts
    split at hupserts
    · obtain ⟨-, rfl⟩ := hupserts
      exact ⟨rfl, rfl, rfl⟩
    · obtain ⟨-, -, -, -, rfl⟩ := hupserts
      exact ⟨rfl, rfl, rfl⟩
  | createRefreshToken tokenHash familyId userId expiresAt =>
    obtain ⟨-, rfl⟩ := h
    exact ⟨rfl, rfl, rfl⟩
  | findRefreshToken tokenHash =>
    obtain ⟨-, rfl⟩ := h
    exact ⟨rfl, rfl, rfl⟩
  | useRefreshToken id =>
    cases h
    exact ⟨rfl, rfl, rfl⟩
  | revokeFamily familyId =>
    cases h
    exact ⟨rfl, rfl, rfl⟩
  | revokeUser userId =>
    cases h
    exact ⟨rfl, rfl, rfl⟩
  | createConfirmation adminId tokenHash action resourceId expiresAt =>
    obtain ⟨-, rfl⟩ := h
    exact ⟨rfl, rfl, rfl⟩
  | findConfirmation tokenHash =>
    obtain ⟨-, rfl⟩ := h
    exact ⟨rfl, rfl, rfl⟩
  | useConfirmation id =>
    cases h
    exact ⟨rfl, rfl, rfl⟩
  | get jti =>
    obtain ⟨-, rfl⟩ := h
    exact ⟨rfl, rfl, rfl⟩
  | smembers walletAddress =>
    obtain ⟨-, rfl⟩ := h
    exact ⟨rfl, rfl, rfl⟩
  | _ => exact absurd rfl hq

namespace Numbers

variable {s s' : AuthStore} {i : ℕ} {g g' : Place} {jti walletAddress : String}

theorem empty : Numbers .empty fun _ => none where
  nonempty := List.not_mem_nil
  drawn := by
    rintro jti (⟨i, h⟩ | h | ⟨i, h⟩)
    · exact absurd h not_held_nobody
    · exact absurd rfl h
    · exact absurd h not_held_nobody
  pending := .nobody
  nodup h := nomatch h
  removed h := absurd h not_held_nobody

/-- Sessions go, numbers are drawn, and the calls know no more than before. -/
theorem of_noMore (h : Numbers s gs) (hle : NoMore gs' gs) (hdrawn : s.drawn ⊆ s'.drawn)
    (hnonempty : "" ∉ s'.drawn) (hkeys : ∀ jti, s'.jtiKeys jti ≠ none → s.jtiKeys jti ≠ none) :
    Numbers s' gs' := by
  have hknown : ∀ jti, Known s' gs' jti → Known s gs jti := by
    rintro jti (hkey | ⟨i, hi⟩)
    · exact .inl (hkeys jti hkey)
    · exact .inr ⟨i, hle.knows hi⟩
  exact
    { nonempty := hnonempty
      drawn := by
        rintro jti (⟨i, hi⟩ | hjti)
        · exact hdrawn (h.drawn (.inl ⟨i, hle.draws hi⟩))
        · exact hdrawn (h.drawn (.inr (hknown jti hjti)))
      pending :=
        { free := fun hi hjti => h.pending.free (hle.draws hi) (hknown _ hjti)
          once := fun hi hj => h.pending.once (hle.draws hi) (hle.draws hj) }
      nodup := hle.nodup h.nodup
      removed := by
        intro i jti hi
        by_contra hkey
        exact hkeys jti hkey (h.removed (hle.removes hi)) }

/-- A call ends, or is started. -/
theorem drop (h : Numbers s gs) (i : ℕ) (o : Option Place)
    (ho : ∀ g ∈ o, ∃ call, g = .first call) : Numbers s (Function.update gs i o) :=
  h.of_noMore (.nothing ho) (fun _ => id) h.nonempty fun _ hkey => hkey

/-- A call knows of a session that exists. -/
theorem extend (h : Numbers s gs) (hi : gs i = some g) (hpending : g'.pending = g.pending)
    (hknows : ∀ jti, g'.knows jti → Known s gs jti)
    (hremoves : ∀ jti, g'.removes jti → s.jtiKeys jti = none) :
    Numbers s (Function.update gs i (some g')) := by
  have hdraw : ∀ {j b}, Held Place.draws (Function.update gs i (some g')) j b →
      Held Place.draws gs j b := by
    refine fun hj => held_of_moved hi hj fun b hb => ?_
    unfold Place.draws at hb ⊢
    exact hpending ▸ hb
  have hknown : ∀ {jti}, Known s (Function.update gs i (some g')) jti → Known s gs jti := by
    rintro jti (hkey | ⟨j, hj⟩)
    · exact .inl hkey
    · rcases held_update hj with ⟨_, ⟨⟩, hb⟩ | hj
      · exact hknows jti hb
      · exact .inr ⟨j, hj⟩
  exact
    { nonempty := h.nonempty
      drawn := by
        rintro jti (⟨j, hj⟩ | hjti)
        · exact h.drawn (.inl ⟨j, hdraw hj⟩)
        · exact h.drawn (.inr (hknown hjti))
      pending :=
        { free := fun hj hjti => h.pending.free (hdraw hj) (hknown hjti)
          once := fun hj hk => h.pending.once (hdraw hj) (hdraw hk) }
      nodup := by
        intro j g'' hj
        by_cases hji : j = i
        · subst hji
          rw [Function.update_self] at hj
          cases hj
          exact hpending ▸ h.nodup hi
        · rw [Function.update_of_ne hji] at hj
          exact h.nodup hj
      removed := by
        intro j jti hj
        rcases held_update hj with ⟨_, ⟨⟩, hb⟩ | hj
        · exact hremoves jti hb
        · exact h.removed hj }

/-- A call knows what it knew. -/
theorem stay (h : Numbers s gs) (hi : gs i = some g) (hpending : g'.pending = g.pending)
    (hknows : ∀ jti, g'.knows jti → g.knows jti)
    (hremoves : ∀ jti, g'.removes jti → g.removes jti) :
    Numbers s (Function.update gs i (some g')) :=
  h.extend hi hpending (fun jti hb => .inr ⟨i, (held_of_eq hi).mpr (hknows jti hb)⟩)
    fun jti hb => h.removed ((held_of_eq hi).mpr (hremoves jti hb))

/-- A number is drawn. -/
theorem draw (h : Numbers s gs) (hi : gs i = some g) (hjti : jti ≠ "") (hfresh : jti ∉ s.drawn) :
    Numbers { s with drawn := jti :: s.drawn }
      (Function.update gs i (some { g with pending := jti :: g.pending })) := by
  have hdraw : ∀ {j b}, Held Place.draws
      (Function.update gs i (some { g with pending := jti :: g.pending })) j b →
        Held Place.draws gs j b ∨ j = i ∧ b = jti := by
    have hmore : ∀ b, Place.draws { g with pending := jti :: g.pending } b →
        g.draws b ∨ b = jti := fun b hb => (List.mem_cons.mp hb).symm
    intro j b hj
    exact held_of_grown hi hj hmore
  have hknown : ∀ {b}, Known { s with drawn := jti :: s.drawn }
      (Function.update gs i (some { g with pending := jti :: g.pending })) b → Known s gs b := by
    rintro b (hkey | ⟨j, hj⟩)
    · exact .inl hkey
    · exact .inr ⟨j, held_of_moved hi hj fun _ hb => hb⟩
  exact
    { nonempty := by
        rintro (_ | ⟨_, hmem⟩)
        · exact hjti rfl
        · exact h.nonempty hmem
      drawn := by
        rintro b (⟨j, hj⟩ | hb)
        · rcases hdraw hj with hj | ⟨-, rfl⟩
          · exact List.mem_cons_of_mem _ (h.drawn (.inl ⟨j, hj⟩))
          · exact List.mem_cons_self
        · exact List.mem_cons_of_mem _ (h.drawn (.inr (hknown hb)))
      pending :=
        { free := by
            intro j b hj hb
            rcases hdraw hj with hj | ⟨-, rfl⟩
            · exact h.pending.free hj (hknown hb)
            · exact hfresh (h.drawn (.inr (hknown hb)))
          once := by
            intro j k b hj hk
            rcases hdraw hj with hj' | ⟨rfl, rfl⟩
            · rcases hdraw hk with hk' | ⟨-, rfl⟩
              · exact h.pending.once hj' hk'
              · exact absurd (h.drawn (.inl ⟨j, hj'⟩)) hfresh
            · rcases hdraw hk with hk' | ⟨rfl, -⟩
              · exact absurd (h.drawn (.inl ⟨k, hk'⟩)) hfresh
              · rfl }
      nodup := by
        intro j g' hj
        by_cases hji : j = i
        · subst hji
          rw [Function.update_self] at hj
          cases hj
          refine List.nodup_cons.mpr ⟨fun hmem => ?_, h.nodup hi⟩
          exact hfresh (h.drawn (.inl ⟨j, (held_of_eq hi).mpr hmem⟩))
        · rw [Function.update_of_ne hji] at hj
          exact h.nodup hj
      removed := fun hj => h.removed (held_of_moved hi hj fun _ hb => hb) }

/-- A number that a call has drawn is not that of a session. -/
theorem not_known (h : Numbers s gs) (hi : gs i = some g) (hjti : jti ∈ g.pending) :
    ¬ Known s gs jti := h.pending.free ((held_of_eq hi).mpr hjti)

/-- The key of a session is set. -/
theorem set (h : Numbers s gs) (hi : gs i = some g) (hjti : jti ∈ g.pending)
    (walletAddress : String) (ttl : ℕ) :
    Numbers (s.setSession jti walletAddress ttl) (Function.update gs i
      (some { g with pending := g.pending.erase jti, half := some (jti, walletAddress) })) := by
  have hpend : Held Place.draws gs i jti := (held_of_eq hi).mpr hjti
  have hdraw : ∀ {j b}, Held Place.draws (Function.update gs i
      (some { g with pending := g.pending.erase jti, half := some (jti, walletAddress) })) j b →
        Held Place.draws gs j b :=
    fun hj => held_of_moved hi hj fun _ hb => List.mem_of_mem_erase hb
  have hknown : ∀ {b}, Known (s.setSession jti walletAddress ttl) (Function.update gs i
      (some { g with pending := g.pending.erase jti, half := some (jti, walletAddress) })) b →
        Known s gs b ∨ b = jti := by
    intro b hb
    by_cases hbjti : b = jti
    · exact .inr hbjti
    · rcases hb with hb | ⟨j, hj⟩
      · rw [s.setSession_of_ne walletAddress ttl hbjti] at hb
        exact .inl (.inl hb)
      · rcases held_update hj with ⟨_, ⟨⟩, hhalf | hb⟩ | hj
        · exact absurd (Option.some.inj hhalf).symm hbjti
        · exact .inl (.inr ⟨i, (held_of_eq hi).mpr (.inr hb)⟩)
        · exact .inl (.inr ⟨j, hj⟩)
  exact
    { nonempty := h.nonempty
      drawn := by
        rintro b (⟨j, hj⟩ | hb)
        · exact h.drawn (.inl ⟨j, hdraw hj⟩)
        · rcases hknown hb with hb | rfl
          · exact h.drawn (.inr hb)
          · exact h.drawn (.inl ⟨i, hpend⟩)
      pending := by
        refine h.pending.settle hpend ?_ fun b hb => hknown hb
        rintro _ ⟨⟩ b hb
        refine ⟨(held_of_eq hi).mpr (List.mem_of_mem_erase hb), ?_⟩
        rintro rfl
        exact (h.nodup hi).not_mem_erase hb
      nodup := by
        intro j g' hj
        by_cases hji : j = i
        · subst hji
          rw [Function.update_self] at hj
          cases hj
          exact (h.nodup hi).erase jti
        · rw [Function.update_of_ne hji] at hj
          exact h.nodup hj
      removed := by
        intro j b hj
        have hold : Held Place.removes gs j b := held_of_moved hi hj fun _ hb => hb
        rw [s.setSession_of_ne]
        · exact h.removed hold
        · rintro rfl
          obtain ⟨g', hj, hb⟩ := hold
          exact h.not_known hi hjti (.inr ⟨j, g', hj, .inr (.inr hb.1)⟩) }

/-! ## Steps -/

/-- What a request does to the sessions that are there. -/
theorem stored {q : AuthRequest} {a : AuthAnswer q} (h : Numbers s gs)
    (hserves : authServer.serves i q s a s') (hset : ∀ jti wallet ttl, q ≠ .set jti wallet ttl) :
    Numbers s' gs := by
  by_cases hq : changesSessions q = true
  · cases q with
    | random =>
      obtain ⟨hne, -, rfl⟩ := hserves
      refine h.of_noMore (.refl gs) (List.subset_cons_self _ _) ?_ fun _ hkey => hkey
      rintro (_ | ⟨_, hmem⟩)
      · exact hne rfl
      · exact h.nonempty hmem
    | set jti walletAddress ttl => exact absurd rfl (hset jti walletAddress ttl)
    | sadd walletAddress jti =>
      cases hserves
      exact h.of_noMore (.refl gs) (fun _ => id) h.nonempty fun _ hkey => hkey
    | del jti =>
      cases hserves
      exact h.of_noMore (.refl gs) (fun _ => id) h.nonempty
        fun _ hkey => (AuthStore.delSessions_ne_none.mp hkey).2
    | srem walletAddress jti =>
      cases hserves
      exact h.of_noMore (.refl gs) (fun _ => id) h.nonempty fun _ hkey => hkey
    | delWallet walletAddress =>
      cases hserves
      exact h.of_noMore (.refl gs) (fun _ => id) h.nonempty fun _ hkey => hkey
    | execDeletes jtis walletAddress =>
      obtain ⟨-, rfl⟩ := hserves
      refine h.of_noMore (.refl gs) (fun _ => id) h.nonempty fun jti hkey => ?_
      rw [AuthStore.execute_jtiKeys] at hkey
      exact (AuthStore.delSessions_ne_none.mp hkey).2
    | _ => cases hq
  · obtain ⟨hkeys, -, hdrawn⟩ := sessions_of_serves hserves hq
    refine h.of_noMore (.refl gs) (by rw [hdrawn]; exact fun _ => id) (hdrawn ▸ h.nonempty) ?_
    rw [hkeys]
    exact fun _ hkey => hkey

/-- A call sees a session. -/
theorem see (h : Numbers s gs) (hi : gs i = some g) (hkept : jti ∉ g.deleted)
    (hkey : s.jtiKeys jti ≠ none) (wallet : String) :
    Numbers s (Function.update gs i (some { g with seen := (jti, wallet) :: g.seen })) := by
  have hsees : ∀ b, Place.sees { g with seen := (jti, wallet) :: g.seen } b →
      g.sees b ∨ b = jti := by
    rintro b ⟨wallet', hb⟩
    rcases List.mem_cons.mp hb with heq | hb
    · exact .inr (Prod.mk.inj heq).1
    · exact .inl ⟨wallet', hb⟩
  refine h.extend hi rfl ?_ ?_
  · rintro b (hb | hb | hb)
    · exact .inr ⟨i, (held_of_eq hi).mpr (.inl hb)⟩
    · exact .inr ⟨i, (held_of_eq hi).mpr (.inr (.inl hb))⟩
    · rcases hsees b hb with hb | rfl
      · exact .inr ⟨i, (held_of_eq hi).mpr (.inr (.inr hb))⟩
      · exact .inl hkey
  · rintro b ⟨hb, hdeleted⟩
    rcases hsees b hb with hb | rfl
    · exact h.removed ((held_of_eq hi).mpr ⟨hb, hdeleted⟩)
    · exact absurd hdeleted hkept

/-- A call deletes the key of a session. -/
theorem delete (h : Numbers s gs) (hi : gs i = some g) (hkey : s.jtiKeys jti = none) :
    Numbers s (Function.update gs i (some { g with deleted := jti :: g.deleted })) := by
  refine h.extend hi rfl (fun b hb => .inr ⟨i, (held_of_eq hi).mpr hb⟩) ?_
  rintro b ⟨hsees, hdeleted⟩
  rcases List.mem_cons.mp hdeleted with rfl | hdeleted
  · exact hkey
  · exact h.removed ((held_of_eq hi).mpr ⟨hsees, hdeleted⟩)

/-- A session gets into the set of its wallet. -/
theorem register (h : Numbers s gs) (hi : gs i = some g)
    (hhalf : g.half = some (jti, walletAddress)) :
    Numbers s (Function.update gs i
      (some { g with half := none, registered := (jti, walletAddress) :: g.registered })) := by
  refine h.stay hi rfl ?_ fun _ hb => hb
  rintro b (hb | ⟨wallet, hb⟩ | hb)
  · cases hb
  · rcases List.mem_cons.mp hb with heq | hb
    · refine .inl ?_
      rw [hhalf, (Prod.mk.inj heq).1]
      rfl
    · exact .inr (.inl ⟨wallet, hb⟩)
  · exact .inr (.inr hb)

/-- A request that is fulfilled. -/
theorem ok {lib : Libraries} {env : Environment} {q : AuthRequest} {a : AuthAnswer q}
    (h : Numbers s gs) (hi : gs i = some g) (hallowed : g.allows lib env q)
    (hserves : authServer.serves i q s a s') :
    Numbers s' (Function.update gs i (some (g.after q a))) := by
  by_cases hconcerns : concerns q = true
  · cases q with
    | random =>
      obtain ⟨hne, hfresh, rfl⟩ := hserves
      exact h.draw hi hne hfresh
    | set jti walletAddress ttl =>
      cases hserves
      exact h.set hi hallowed walletAddress ttl
    | sadd walletAddress jti => exact (h.stored hserves nofun).register hi hallowed
    | get jti =>
      obtain ⟨ha, rfl⟩ := hserves
      cases a with
      | none => exact h.stay hi rfl (fun _ hb => hb) fun _ hb => hb
      | some wallet => exact h.see hi hallowed (AuthStore.key_of_session ha.symm) wallet
    | del jti =>
      have hstored := h.stored hserves nofun
      cases hserves
      refine hstored.delete hi ?_
      by_contra hkey
      exact (AuthStore.delSessions_ne_none.mp hkey).1 (List.mem_singleton_self jti)
    | smembers walletAddress =>
      exact (h.stored hserves nofun).stay hi rfl (fun _ hb => hb) fun _ hb => hb
    | delWallet walletAddress =>
      exact (h.stored hserves nofun).stay hi rfl (fun _ hb => hb) fun _ hb => hb
    | execDeletes jtis walletAddress =>
      exact (h.stored hserves nofun).stay hi rfl (fun _ hb => hb) fun _ hb => hb
    | _ => cases hconcerns
  · have hset : ∀ jti wallet ttl, q ≠ .set jti wallet ttl := by
      rintro jti wallet ttl rfl
      exact hconcerns rfl
    have hsame := Place.after_sessions g a hconcerns
    obtain ⟨call, rest⟩ : ∃ call found spent,
        g.after q a = { g with call := call, found := found, spent := spent } :=
      Place.eq_of_sessions hsame
    obtain ⟨found, spent, hafter⟩ := rest
    rw [hafter]
    exact (h.stored hserves hset).stay hi rfl (fun _ hb => hb) fun _ hb => hb

/-- A request that is rejected, with or without an effect, ends its call. -/
theorem error {lib : Libraries} {env : Environment} {q : AuthRequest} {a : AuthAnswer q}
    (h : Numbers s gs) (hi : gs i = some g) (hallowed : g.allows lib env q)
    (hserves : authServer.serves i q s a s') (call : AuthCall) :
    Numbers s' (Function.update gs i (some (.first call))) := by
  have hdone := (h.ok hi hallowed hserves).drop i (some (.first call))
    (by rintro g ⟨⟩; exact ⟨call, rfl⟩)
  rw [Function.update_idem] at hdone
  exact hdone

end Numbers

/-! ## Runs -/

/-- The numbers are in order in every run. -/
theorem numbers_of_run {lib : Libraries} {env : Environment}
    {tr : List (AuthSystem × AuthEvent)} {t : AuthSystem}
    (hrun : Run (System.Step (AuthCall.program lib env) authServer) (.idle .empty) tr t) :
    Numbers t.shared (stands lib env tr t) := by
  refine standing_of_run (K := fun _ _ _ => True) (Q := Finished lib env) expected_of_serves
    (program_follows lib env) Numbers.empty ?_ ?_ ?_ ?_ hrun (EachStep.of_forall fun _ _ _ => trivial)
  · intro s gs i h
    exact h.drop i none (by rintro g ⟨⟩)
  · intro s gs i c h _
    exact h.drop i (some (.first c)) (by rintro g ⟨⟩; exact ⟨c, rfl⟩)
  · intro tr t i g r s' _ h hi hallowed hreply
    cases hreply with
    | served hserves => exact h.ok hi hallowed hserves
    | lost hserves => exact h.error hi hallowed hserves g.call
    | refused => exact h.drop i _ (by rintro g ⟨⟩; exact ⟨_, rfl⟩)
  · rintro s gs ⟨milliseconds⟩ s' h rfl
    exact h.of_noMore (.refl gs) (fun _ => id) h.nonempty fun _ hkey => hkey

end InverseArena.Backend.Auth
