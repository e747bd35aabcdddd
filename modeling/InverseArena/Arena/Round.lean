import InverseArena.Arena.Rules
import InverseArena.Arena.Storage
import InverseArena.Library.Selection

/-!
# Resolving the players of a round

`resolve_players` and `build_leaderboard` (`contract/arena/src/lib.rs`,
lines 999-1097).

Results:
* `resolvePlayers_eq`: over a duplicate-free player list, the loop gives every
  active player the outcome computed from the state before the loop.
* `survivorsOf_ne_nil`: some player stays iff an active player has a choice for
  the round.
* `head?_buildLeaderboard`: the leaderboard starts with a player who survived
  the most rounds.
-/

namespace InverseArena.Arena

open MachineInt

/-- `RoundResolution`. -/
structure RoundResolution where
  eliminated : ℕ
  survivors : ℕ
  winner : Option Address
  tied : Bool
  deriving DecidableEq, Repr

/-- The variables of the second loop of `resolve_players`. At most
    `MAX_PLAYERS_ALLOWED` increments happen to each counter. -/
structure Resolving where
  storage : ArenaStorage
  events : List ArenaEvent
  eliminated : ℕ
  survivors : ℕ
  winner : Option Address

/-- The first loop of `resolve_players` (lines 1001-1009). -/
def activeChoices (s : ArenaStorage) (round : ℕ) : List Choice :=
  s.loadAllPlayers.filterMap fun player =>
    if (s.playerState player).active then s.loadChoice player round else none

/-- The tally of the round (line 1011). -/
def roundTally (s : ArenaStorage) (round : ℕ) : Tally := tallyChoices (activeChoices s round)

/-- The body of the second loop of `resolve_players` (lines 1017-1039). -/
def resolvePlayer (tally : Tally) (round : ℕ) (r : Resolving) (player : Address) : Resolving :=
  let state := r.storage.playerState player
  if state.active = false then r
  else
    let choice := r.storage.loadChoice player round
    let shouldEliminate := (choice.map fun c => isEliminated c tally).getD true
    if shouldEliminate then
      let storage := r.storage.removePlayerChoice player round
      { r with
        eliminated := r.eliminated + 1
        events := r.events ++ [.playerEliminated player round]
        storage := storage.savePlayer player { state with active := false } }
    else
      let state := { state with roundsSurvived := satAddU32 state.roundsSurvived 1 }
      { r with
        survivors := r.survivors + 1
        winner := some player
        storage := r.storage.savePlayer player state }

/-- `resolve_players(round)`, on the storage and the events published so far. -/
def resolvePlayers (s : ArenaStorage) (events : List ArenaEvent) (round : ℕ) :
    RoundResolution × Resolving :=
  let players := s.loadAllPlayers
  let tally := roundTally s round
  let tied : Bool := tally.heads > 0 ∧ tally.heads = tally.tails
  let r := players.foldl (resolvePlayer tally round) ⟨s, events, 0, 0, none⟩
  if r.survivors = 1 then (⟨r.eliminated, r.survivors, r.winner, tied⟩, r)
  else (⟨r.eliminated, r.survivors, none, tied⟩, r)

/-- `build_leaderboard` (lines 1059-1097), without its event. -/
def buildLeaderboard (s : ArenaStorage) : ArenaStorage :=
  let players := s.loadAllPlayers
  let limit := s.loadLeaderboardLimit
  let entries := players.map fun player =>
    { player := player, roundsSurvived := (s.playerState player).roundsSurvived }
  let k := min limit players.length
  s.saveLeaderboard (Selection.selectTop LeaderboardEntry.roundsSurvived k entries)

/-! ## The outcome of each player -/

section Outcomes

variable (tally : Tally) (round : ℕ) (s : ArenaStorage) (player : Address)

/-- An active player whose choice is not eliminated. -/
def stays : Bool :=
  (s.playerState player).active &&
    ((s.loadChoice player round).map fun c => !isEliminated c tally).getD false

/-- An active player whose choice is eliminated, or who has none. -/
def dropsOut : Bool :=
  (s.playerState player).active &&
    ((s.loadChoice player round).map fun c => isEliminated c tally).getD true

/-- The state of a player after the round. -/
def outcome : PlayerState :=
  let state := s.playerState player
  if stays tally round s player then
    { state with roundsSurvived := satAddU32 state.roundsSurvived 1 }
  else { state with active := false }

variable {tally round s player} {s' : ArenaStorage}

theorem stays_eq_true : stays tally round s player = true ↔
    (s.playerState player).active = true ∧
      ∃ c, s.choice (player, round) = some c ∧ isEliminated c tally = false := by
  unfold stays ArenaStorage.loadChoice
  cases h : s.choice (player, round) with
  | none => simp
  | some c => simp

/-- Whoever is active either stays or drops out. -/
theorem dropsOut_eq (player : Address) : dropsOut tally round s player =
    ((s.playerState player).active && !stays tally round s player) := by
  unfold dropsOut stays
  cases (s.playerState player).active with
  | false => rfl
  | true =>
    cases h : s.loadChoice player round with
    | none => rfl
    | some c => simp

theorem outcome_of_stays (h : stays tally round s player = true) :
    outcome tally round s player = { s.playerState player with
      roundsSurvived := satAddU32 (s.playerState player).roundsSurvived 1 } := by
  unfold outcome; rw [if_pos h]

theorem outcome_of_not_stays (h : stays tally round s player = false) :
    outcome tally round s player = { s.playerState player with active := false } := by
  unfold outcome; rw [if_neg (by simp [h])]

/-- Only the player's own entries matter for the outcome. -/
theorem stays_congr (hp : s'.player player = s.player player)
    (hc : s'.choice (player, round) = s.choice (player, round)) :
    stays tally round s' player = stays tally round s player := by
  unfold stays ArenaStorage.playerState ArenaStorage.loadPlayer ArenaStorage.loadChoice
  rw [hp, hc]

theorem playerState_congr (hp : s'.player player = s.player player) :
    s'.playerState player = s.playerState player := by
  unfold ArenaStorage.playerState ArenaStorage.loadPlayer
  rw [hp]

end Outcomes

/-! ## The loop over the players -/

/-- What the second loop does to a player list `l` without duplicates. -/
def Resolving.after (tally : Tally) (round : ℕ) (r : Resolving) (l : List Address) : Resolving where
  storage := { r.storage with
    player := fun p =>
      if p ∈ l ∧ (r.storage.playerState p).active = true then some (outcome tally round r.storage p)
      else r.storage.player p
    choice := fun k =>
      if k.2 = round ∧ k.1 ∈ l ∧ dropsOut tally round r.storage k.1 then none
      else r.storage.choice k }
  events := r.events ++
    (l.filter (dropsOut tally round r.storage)).map fun p => .playerEliminated p round
  eliminated := r.eliminated + (l.filter (dropsOut tally round r.storage)).length
  survivors := r.survivors + (l.filter (stays tally round r.storage)).length
  winner := (l.filter (stays tally round r.storage)).getLast?.or r.winner

section Loop

variable {tally : Tally} {round : ℕ} {r : Resolving} {a : Address} {l : List Address}

/-- One iteration, by the three outcomes of player `a`. -/
theorem resolvePlayer_eq : resolvePlayer tally round r a =
    if (r.storage.playerState a).active = false then r
    else if stays tally round r.storage a then { r with
      survivors := r.survivors + 1
      winner := some a
      storage := r.storage.savePlayer a (outcome tally round r.storage a) }
    else { r with
      eliminated := r.eliminated + 1
      events := r.events ++ [.playerEliminated a round]
      storage := (r.storage.removePlayerChoice a round).savePlayer a
        (outcome tally round r.storage a) } := by
  unfold resolvePlayer outcome stays
  dsimp only
  cases hact : (r.storage.playerState a).active with
  | false => rfl
  | true =>
    cases hc : r.storage.loadChoice a round with
    | none => rfl
    | some c => cases he : isEliminated c tally <;> simp [he]

/-- An iteration touches no other player's entries. -/
theorem resolvePlayer_frame {p : Address} (h : p ≠ a) :
    (resolvePlayer tally round r a).storage.player p = r.storage.player p ∧
      ∀ n, (resolvePlayer tally round r a).storage.choice (p, n) = r.storage.choice (p, n) := by
  have hk : ∀ n, (p, n) ≠ (a, round) := fun n hn => h (Prod.ext_iff.mp hn).1
  rw [resolvePlayer_eq]
  split_ifs with h1 h2
  · exact ⟨rfl, fun _ => rfl⟩
  · exact ⟨Function.update_of_ne h _ _, fun _ => rfl⟩
  · exact ⟨Function.update_of_ne h _ _, fun n => Function.update_of_ne (hk n) _ _⟩

theorem after_resolvePlayer (ha : a ∉ l) :
    (resolvePlayer tally round r a).after tally round l = r.after tally round (a :: l) := by
  have hne : ∀ p ∈ l, p ≠ a := by rintro p hp rfl; exact ha hp
  have hstays : ∀ p ∈ l, stays tally round (resolvePlayer tally round r a).storage p =
      stays tally round r.storage p := fun p hp =>
    stays_congr (resolvePlayer_frame (hne p hp)).1 ((resolvePlayer_frame (hne p hp)).2 round)
  have hstate : ∀ p ∈ l, (resolvePlayer tally round r a).storage.playerState p =
      r.storage.playerState p := fun p hp => playerState_congr (resolvePlayer_frame (hne p hp)).1
  have hdrops : ∀ p ∈ l, dropsOut tally round (resolvePlayer tally round r a).storage p =
      dropsOut tally round r.storage p := fun p hp => by
    rw [dropsOut_eq, dropsOut_eq, hstays p hp, hstate p hp]
  have hout : ∀ p ∈ l, outcome tally round (resolvePlayer tally round r a).storage p =
      outcome tally round r.storage p := fun p hp => by
    unfold outcome
    rw [hstays p hp, hstate p hp]
  have hplayer : ∀ p, (if p ∈ l ∧ ((resolvePlayer tally round r a).storage.playerState p).active
        then some (outcome tally round (resolvePlayer tally round r a).storage p)
        else (resolvePlayer tally round r a).storage.player p) =
      if p ∈ a :: l ∧ (r.storage.playerState p).active then some (outcome tally round r.storage p)
      else r.storage.player p := by
    intro p
    by_cases hpa : p = a
    · subst hpa
      rw [if_neg (fun h => ha h.1), resolvePlayer_eq]
      split_ifs with h1 h2 h3 h4 <;> simp_all [ArenaStorage.savePlayer]
    · by_cases hpl : p ∈ l
      · rw [hstate p hpl, hout p hpl, (resolvePlayer_frame hpa).1]
        simp [hpa]
      · rw [if_neg (fun h => hpl h.1), (resolvePlayer_frame hpa).1, if_neg]
        rintro ⟨h, -⟩
        exact (List.mem_cons.mp h).elim hpa hpl
  have hchoice : ∀ k : Address × ℕ, (if k.2 = round ∧ k.1 ∈ l ∧
          dropsOut tally round (resolvePlayer tally round r a).storage k.1 then none
        else (resolvePlayer tally round r a).storage.choice k) =
      if k.2 = round ∧ k.1 ∈ a :: l ∧ dropsOut tally round r.storage k.1 then none
      else r.storage.choice k := by
    rintro ⟨p, n⟩
    by_cases hpa : p = a
    · subst hpa
      rw [if_neg (fun h => ha h.2.1), resolvePlayer_eq]
      simp only [dropsOut_eq, List.mem_cons, true_or, true_and]
      split_ifs with h1 h2 h3 h4 h5
      · simp_all
      · rfl
      · simp_all
      · rfl
      · obtain ⟨rfl, -⟩ := h5; exact Function.update_self _ _ _
      · exact Function.update_of_ne (fun h => h5 ⟨(Prod.ext_iff.mp h).2, by simp_all⟩) _ _
    · by_cases hpl : p ∈ l
      · rw [(resolvePlayer_frame hpa).2, hdrops p hpl]
        simp [hpa]
      · rw [if_neg (fun h => hpl h.2.1), (resolvePlayer_frame hpa).2, if_neg]
        rintro ⟨-, h, -⟩
        exact (List.mem_cons.mp h).elim hpa hpl
  unfold Resolving.after
  rw [List.filter_congr hstays, List.filter_congr hdrops]
  simp only [hplayer, hchoice]
  rw [resolvePlayer_eq, List.filter_cons, List.filter_cons, dropsOut_eq]
  by_cases hact : (r.storage.playerState a).active = true
  · by_cases hst : stays tally round r.storage a = true
    · simp [hact, hst, ArenaStorage.savePlayer, List.getLast?_cons, Nat.add_assoc, Nat.add_comm 1]
    · simp [hact, hst, ArenaStorage.savePlayer, ArenaStorage.removePlayerChoice, Nat.add_assoc,
        Nat.add_comm 1]
  · have hst : stays tally round r.storage a = false := by
      unfold stays; simp [hact]
    simp [hact, hst]

/-- The second loop gives each active player its outcome. -/
theorem foldl_resolvePlayer (hl : l.Nodup) :
    l.foldl (resolvePlayer tally round) r = r.after tally round l := by
  induction l generalizing r with
  | nil => simp [Resolving.after]
  | cons a l ih =>
    obtain ⟨ha, hl⟩ := List.nodup_cons.mp hl
    rw [List.foldl_cons, ih hl]
    exact after_resolvePlayer ha

end Loop

/-! ## The whole round -/

section Whole

variable {s : ArenaStorage} {events : List ArenaEvent} {round : ℕ}

/-- The players who stay after `round` is resolved. -/
def survivorsOf (s : ArenaStorage) (round : ℕ) : List Address :=
  s.loadAllPlayers.filter (stays (roundTally s round) round s)

/-- The players who drop out when `round` is resolved. -/
def droppedFrom (s : ArenaStorage) (round : ℕ) : List Address :=
  s.loadAllPlayers.filter (dropsOut (roundTally s round) round s)

theorem eliminated_resolvePlayers (h : s.loadAllPlayers.Nodup) :
    (resolvePlayers s events round).1.eliminated = (droppedFrom s round).length := by
  unfold resolvePlayers droppedFrom
  dsimp only
  rw [foldl_resolvePlayer h]
  split_ifs
  · exact Nat.zero_add _
  · exact Nat.zero_add _

/-- `resolve_players` over a duplicate-free player list. -/
theorem resolvePlayers_eq (h : s.loadAllPlayers.Nodup) :
    (resolvePlayers s events round).2 =
        (⟨s, events, 0, 0, none⟩ : Resolving).after (roundTally s round) round s.loadAllPlayers ∧
      (resolvePlayers s events round).1.survivors = (survivorsOf s round).length ∧
      (∀ w, (resolvePlayers s events round).1.winner = some w ↔ survivorsOf s round = [w]) := by
  unfold resolvePlayers survivorsOf
  dsimp only
  rw [foldl_resolvePlayer h]
  refine ⟨by split_ifs <;> rfl, by split_ifs <;> simp [Resolving.after], fun w => ?_⟩
  generalize hl : s.loadAllPlayers.filter (stays (roundTally s round) round s) = l
  have hsurv : ((⟨s, events, 0, 0, none⟩ : Resolving).after (roundTally s round) round
      s.loadAllPlayers).survivors = l.length := by simp [Resolving.after, hl]
  have hwin : ((⟨s, events, 0, 0, none⟩ : Resolving).after (roundTally s round) round
      s.loadAllPlayers).winner = l.getLast? := by simp [Resolving.after, hl]
  rw [hsurv, hwin]
  split_ifs with h1
  · obtain ⟨a, rfl⟩ := List.length_eq_one_iff.mp h1
    simp
  · constructor
    · intro h2; cases h2
    · rintro rfl; exact absurd rfl h1

theorem mem_activeChoices {c : Choice} : c ∈ activeChoices s round ↔
    ∃ p ∈ s.loadAllPlayers, (s.playerState p).active = true ∧ s.choice (p, round) = some c := by
  unfold activeChoices ArenaStorage.loadChoice
  rw [List.mem_filterMap]
  constructor
  · rintro ⟨p, hp, h⟩
    split_ifs at h with ha
    exact ⟨p, hp, ha, h⟩
  · rintro ⟨p, hp, ha, h⟩
    exact ⟨p, hp, by rw [if_pos ha, h]⟩

/-- Somebody survives the round iff some active player has a choice for it. -/
theorem survivorsOf_ne_nil : survivorsOf s round ≠ [] ↔
    ∃ p ∈ s.loadAllPlayers, (s.playerState p).active = true ∧ s.choice (p, round) ≠ none := by
  constructor
  · intro h
    obtain ⟨p, hp⟩ := List.exists_mem_of_ne_nil _ h
    obtain ⟨hp, hst⟩ := List.mem_filter.mp hp
    obtain ⟨ha, c, hc, -⟩ := stays_eq_true.mp hst
    exact ⟨p, hp, ha, by rw [hc]; simp⟩
  · rintro ⟨p, hp, ha, hc⟩
    obtain ⟨c, hc⟩ := Option.ne_none_iff_exists'.mp hc
    have hne : activeChoices s round ≠ [] :=
      List.ne_nil_of_mem (mem_activeChoices.mpr ⟨p, hp, ha, hc⟩)
    -- the minority side, or both sides on a tie, is not eliminated
    obtain ⟨d, hd, hel⟩ := exists_not_eliminated hne
    obtain ⟨q, hq, hqa, hqc⟩ := mem_activeChoices.mp hd
    exact List.ne_nil_of_mem
      (List.mem_filter.mpr ⟨hq, stays_eq_true.mpr ⟨hqa, d, hqc, hel⟩⟩)

/-- The leaderboard starts with a player who survived the most rounds. -/
theorem head?_buildLeaderboard (hne : s.loadAllPlayers ≠ []) (hlim : 1 ≤ s.loadLeaderboardLimit) :
    ∃ p ∈ s.loadAllPlayers, (buildLeaderboard s).loadLeaderboard.head? =
        some ⟨p, (s.playerState p).roundsSurvived⟩ ∧
      ∀ q ∈ s.loadAllPlayers,
        (s.playerState q).roundsSurvived ≤ (s.playerState p).roundsSurvived := by
  have hlen : 0 < s.loadAllPlayers.length := List.length_pos_iff.mpr hne
  have hentries : (s.loadAllPlayers.map fun player =>
      LeaderboardEntry.mk player (s.playerState player).roundsSurvived) ≠ [] := by
    simpa using hne
  have hk : 0 < min s.loadLeaderboardLimit s.loadAllPlayers.length := by omega
  obtain ⟨e, he, hhead, hmax⟩ :=
    @Selection.head?_selectTop _ LeaderboardEntry.roundsSurvived _ hentries _ hk
  obtain ⟨p, hp, rfl⟩ := List.mem_map.mp he
  exact ⟨p, hp, hhead, fun q hq => hmax _ (List.mem_map.mpr ⟨q, hq, rfl⟩)⟩

end Whole

end InverseArena.Arena
