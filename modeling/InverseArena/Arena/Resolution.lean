import InverseArena.Arena.Effects

/-!
# What a round computes

`resolve_players` and `build_leaderboard` (`contract/arena/src/lib.rs`, lines
999-1097) against what they are for, in any storage: whoever does not reveal is
out, and so is the side that has more votes than the other; the leaderboard is the
beginning of the players sorted by the rounds that they have survived.

Results:
* `resolvePlayers_meets`: a round has the outcome specified, whatever the order of
  the players; a counter of rounds survived grows by one or is full.
* `rounds_survived_full`: a counter that does not grow.
* `buildLeaderboard_eq`: the leaderboard is the beginning of the stable sort.
-/

namespace InverseArena.Arena

open MachineInt

/-! ## The specification -/

/-- The other side. -/
def Choice.opposite : Choice → Choice
  | .Heads => .Tails
  | .Tails => .Heads

/-- The active players who have revealed `c`. -/
def revealersOf (s : ArenaStorage) (round : ℕ) (c : Choice) : List Address :=
  s.activePlayers.filter fun p => s.loadChoice p round = some c

/-- Both sides have votes, and `c` has more. -/
def Outvoted (s : ArenaStorage) (round : ℕ) (c : Choice) : Prop :=
  0 < (revealersOf s round c.opposite).length ∧
    (revealersOf s round c.opposite).length < (revealersOf s round c).length

/-- The player has not revealed, or has revealed the choice of the majority. -/
def Loses (s : ArenaStorage) (round : ℕ) (p : Address) : Prop :=
  s.loadChoice p round = none ∨ ∃ c, s.loadChoice p round = some c ∧ Outvoted s round c

/-- From the storage `s` a round leads to `s'`, with the outcome `resolution`. -/
structure MeetsSpecification (s : ArenaStorage) (round : ℕ) (resolution : RoundResolution)
    (s' : ArenaStorage) : Prop where
  eliminated : ∀ p ∈ s.activePlayers, p ∉ s'.activePlayers ↔ Loses s round p
  /-- A tie or a unanimous vote. -/
  undecided : ((revealersOf s round .Heads).length = (revealersOf s round .Tails).length ∨
      revealersOf s round .Heads = [] ∨ revealersOf s round .Tails = []) →
    ∀ c, revealersOf s round c ⊆ s'.activePlayers
  counted : resolution.eliminated + resolution.survivors = s.activePlayers.length
  survived : resolution.survivors = s'.activePlayers.length
  winner : ∀ w, resolution.winner = some w ↔ s'.activePlayers = [w]
  /-- The rounds survived grow by one, up to `u32::MAX`. -/
  survivors : ∀ p ∈ s'.activePlayers, s'.playerState p = { s.playerState p with
    roundsSurvived := satAddU32 (s.playerState p).roundsSurvived 1 }
  inactive : ∀ p, p ∉ s.activePlayers →
    p ∉ s'.activePlayers ∧ s'.player p = s.player p ∧
      s'.choice (p, round) = s.choice (p, round)

section Votes

variable {s : ArenaStorage} {round : ℕ} {c : Choice} {p : Address}

theorem mem_activePlayers_iff :
    p ∈ s.activePlayers ↔ p ∈ s.loadAllPlayers ∧ (s.playerState p).active = true := by
  unfold ArenaStorage.activePlayers
  rw [List.mem_filter, ArenaStorage.isActive_eq]

theorem mem_revealersOf :
    p ∈ revealersOf s round c ↔ p ∈ s.activePlayers ∧ s.loadChoice p round = some c := by
  unfold revealersOf
  rw [List.mem_filter, decide_eq_true_eq]

theorem activeChoices_eq :
    activeChoices s round = s.activePlayers.filterMap fun p => s.loadChoice p round := by
  unfold activeChoices ArenaStorage.activePlayers
  rw [List.filterMap_filter]
  simp only [ArenaStorage.isActive_eq]

/-- The tally counts the players who have revealed each side. -/
theorem votes_roundTally (c : Choice) :
    (roundTally s round).votes c = (revealersOf s round c).length := by
  have hcount : (activeChoices s round).count c = (revealersOf s round c).length := by
    rw [activeChoices_eq, revealersOf, List.count, List.countP_filterMap, List.countP_eq_length_filter]
    congr 1
    refine List.filter_congr fun p _ => ?_
    cases s.loadChoice p round with
    | none => rfl
    | some d => cases d <;> cases c <;> rfl
  rw [← hcount, roundTally, tallyChoices_eq]
  cases c <;> rfl

theorem against_roundTally (c : Choice) :
    (roundTally s round).against c = (revealersOf s round c.opposite).length := by
  rw [← votes_roundTally]
  cases c <;> rfl

/-- A choice that somebody has revealed is eliminated if it is outvoted. -/
theorem isEliminated_iff_outvoted (hp : p ∈ revealersOf s round c) :
    isEliminated c (roundTally s round) = true ↔ Outvoted s round c := by
  have hvotes : 0 < (roundTally s round).votes c := by
    rw [votes_roundTally]
    exact List.length_pos_of_mem hp
  rw [isEliminated_eq_true hvotes, votes_roundTally, against_roundTally]
  exact Iff.rfl

/-- An active player stays unless the specification says otherwise. -/
theorem stays_iff_not_loses (hp : p ∈ s.activePlayers) :
    stays (roundTally s round) round s p = true ↔ ¬ Loses s round p := by
  rw [stays_eq_true]
  have hactive := (mem_activePlayers_iff.mp hp).2
  constructor
  · rintro ⟨-, c, hc, hstays⟩ (hnone | ⟨d, hd, hout⟩)
    · exact nomatch hc.symm.trans hnone
    · cases hc.symm.trans hd
      have hel := (isEliminated_iff_outvoted (mem_revealersOf.mpr ⟨hp, hc⟩)).mpr hout
      exact nomatch hstays.symm.trans hel
  · intro hkeeps
    cases hc : s.loadChoice p round with
    | none => exact absurd (Or.inl hc) hkeeps
    | some c =>
      refine ⟨hactive, c, hc, Bool.eq_false_iff.mpr fun hel => hkeeps (.inr ⟨c, hc, ?_⟩)⟩
      exact (isEliminated_iff_outvoted (mem_revealersOf.mpr ⟨hp, hc⟩)).mp hel

/-- No side is outvoted on a tie, or when nobody has voted for the other one. -/
theorem not_outvoted (h : (revealersOf s round .Heads).length = (revealersOf s round .Tails).length ∨
      revealersOf s round .Heads = [] ∨ revealersOf s round .Tails = []) (c : Choice) :
    ¬ Outvoted s round c := by
  rintro ⟨hpos, hlt⟩
  rcases h with htie | hheads | htails
  · cases c <;> simp only [Choice.opposite] at hlt <;> omega
  · cases c <;> simp only [Choice.opposite, hheads, List.length_nil] at hpos hlt <;> omega
  · cases c <;> simp only [Choice.opposite, htails, List.length_nil] at hpos hlt <;> omega

end Votes

/-! ## The loop over the players -/

section Rounds

variable {s : ArenaStorage} {events : List ArenaEvent} {round : ℕ}

theorem mem_survivorsOf {p : Address} :
    p ∈ survivorsOf s round ↔ p ∈ s.activePlayers ∧ ¬ Loses s round p := by
  unfold survivorsOf
  rw [List.mem_filter]
  constructor
  · rintro ⟨hmem, hstays⟩
    have hp : p ∈ s.activePlayers :=
      mem_activePlayers_iff.mpr ⟨hmem, (stays_eq_true.mp hstays).1⟩
    exact ⟨hp, (stays_iff_not_loses hp).mp hstays⟩
  · rintro ⟨hp, hkeeps⟩
    exact ⟨(mem_activePlayers_iff.mp hp).1, (stays_iff_not_loses hp).mpr hkeeps⟩

/-- Whoever is active drops out or stays. -/
theorem length_droppedFrom_add : (droppedFrom s round).length + (survivorsOf s round).length =
    s.activePlayers.length := by
  have hsplit : ∀ l : List Address,
      (l.filter (dropsOut (roundTally s round) round s)).length +
        (l.filter (stays (roundTally s round) round s)).length = (l.filter s.isActive).length := by
    intro l
    induction l with
    | nil => rfl
    | cons p l ih =>
      simp only [List.filter_cons, dropsOut_eq, ArenaStorage.isActive_eq] at ih ⊢
      cases hactive : (s.playerState p).active with
      | false =>
        have hstays : stays (roundTally s round) round s p = false := by
          unfold stays
          rw [hactive]
          rfl
        simpa [hstays] using ih
      | true =>
        cases hstays : stays (roundTally s round) round s p with
        | false => simp; omega
        | true => simp; omega
  exact hsplit s.loadAllPlayers

variable (h : s.loadAllPlayers.Nodup)

include h in
/-- The state of each active player after the round. -/
theorem playerState_resolvePlayers {p : Address} (hp : p ∈ s.activePlayers) :
    (resolvePlayers s events round).2.storage.playerState p =
      outcome (roundTally s round) round s p := by
  rw [(resolvePlayers_eq h).1]
  unfold ArenaStorage.playerState ArenaStorage.loadPlayer Resolving.after
  dsimp only
  rw [if_pos (mem_activePlayers_iff.mp hp)]
  rfl

include h in
/-- The entries of the others are left alone. -/
theorem player_resolvePlayers {p : Address} (hp : p ∉ s.activePlayers) :
    (resolvePlayers s events round).2.storage.player p = s.player p ∧
      (resolvePlayers s events round).2.storage.choice (p, round) = s.choice (p, round) := by
  rw [(resolvePlayers_eq h).1]
  unfold Resolving.after
  refine ⟨if_neg fun hmem => hp (mem_activePlayers_iff.mpr hmem), if_neg ?_⟩
  rintro ⟨-, hmem, hdrops⟩
  rw [dropsOut_eq, Bool.and_eq_true] at hdrops
  exact hp (mem_activePlayers_iff.mpr ⟨hmem, hdrops.1⟩)

include h in
theorem loadAllPlayers_resolvePlayers :
    (resolvePlayers s events round).2.storage.loadAllPlayers = s.loadAllPlayers := by
  rw [(resolvePlayers_eq h).1]
  rfl

include h in
/-- Those who stay are active afterwards. -/
theorem activePlayers_resolvePlayers :
    (resolvePlayers s events round).2.storage.activePlayers = survivorsOf s round := by
  unfold ArenaStorage.activePlayers survivorsOf
  rw [loadAllPlayers_resolvePlayers h]
  refine List.filter_congr fun p hmem => ?_
  rw [ArenaStorage.isActive_eq]
  by_cases hactive : (s.playerState p).active = true
  · rw [playerState_resolvePlayers h (mem_activePlayers_iff.mpr ⟨hmem, hactive⟩)]
    cases hstays : stays (roundTally s round) round s p with
    | false => rw [outcome_of_not_stays hstays]
    | true =>
      rw [outcome_of_stays hstays]
      exact hactive
  · have hp : p ∉ s.activePlayers := fun hp => hactive (mem_activePlayers_iff.mp hp).2
    have hstays : stays (roundTally s round) round s p = false := by
      unfold stays
      rw [Bool.eq_false_iff.mpr hactive]
      rfl
    rw [playerState_congr (player_resolvePlayers h hp).1, hstays]
    exact Bool.eq_false_iff.mpr hactive

include h in
/-- A round has the outcome specified. -/
theorem meetsSpecification_resolvePlayers :
    MeetsSpecification s round (resolvePlayers s events round).1
      (resolvePlayers s events round).2.storage := by
  obtain ⟨-, hsurvivors, hwinner⟩ := @resolvePlayers_eq s events round h
  have hactive := @activePlayers_resolvePlayers s events round h
  constructor
  case eliminated =>
    intro p hp
    rw [hactive, mem_survivorsOf]
    constructor
    · intro hout
      by_contra hkeeps
      exact hout ⟨hp, hkeeps⟩
    · exact fun hloses hmem => hmem.2 hloses
  case undecided =>
    intro hundecided c p hp
    obtain ⟨hp, hc⟩ := mem_revealersOf.mp hp
    rw [hactive, mem_survivorsOf]
    refine ⟨hp, ?_⟩
    rintro (hnone | ⟨d, -, hout⟩)
    · exact nomatch hc.symm.trans hnone
    · exact not_outvoted hundecided d hout
  case counted =>
    rw [eliminated_resolvePlayers h, hsurvivors, length_droppedFrom_add]
  case survived => rw [hsurvivors, hactive]
  case winner =>
    intro w
    rw [hwinner, hactive]
  case survivors =>
    intro p hp
    rw [hactive] at hp
    have hstays : stays (roundTally s round) round s p = true := (List.mem_filter.mp hp).2
    rw [playerState_resolvePlayers h (mem_survivorsOf.mp hp).1, outcome_of_stays hstays]
  case inactive =>
    intro p hp
    rw [hactive]
    exact ⟨fun hmem => hp (mem_survivorsOf.mp hmem).1, player_resolvePlayers h hp⟩

/-! ## The order of the players -/

variable {players : List Address} (hperm : players.Perm s.loadAllPlayers)

include hperm in
theorem roundTally_savePlayers : roundTally (s.savePlayers players) round = roundTally s round := by
  have hchoices : (activeChoices (s.savePlayers players) round).Perm (activeChoices s round) :=
    hperm.filterMap _
  unfold roundTally
  rw [tallyChoices_eq, tallyChoices_eq, hchoices.count_eq, hchoices.count_eq]

include h hperm in
/-- The order of the list of players does not matter. -/
theorem resolvePlayers_savePlayers :
    (resolvePlayers (s.savePlayers players) events round).1 =
        (resolvePlayers s events round).1 ∧
      (resolvePlayers (s.savePlayers players) events round).2.storage =
        (resolvePlayers s events round).2.storage.savePlayers players ∧
      (resolvePlayers (s.savePlayers players) events round).2.events.Perm
        (resolvePlayers s events round).2.events := by
  have h' : (s.savePlayers players).loadAllPlayers.Nodup := hperm.nodup_iff.mpr h
  have htally := @roundTally_savePlayers s round players hperm
  have hdropped : (droppedFrom (s.savePlayers players) round).Perm (droppedFrom s round) := by
    unfold droppedFrom
    rw [htally]
    exact hperm.filter _
  have hstay : (survivorsOf (s.savePlayers players) round).Perm (survivorsOf s round) := by
    unfold survivorsOf
    rw [htally]
    exact hperm.filter _
  obtain ⟨hafter, hsurvivors, hwinner⟩ := @resolvePlayers_eq s events round h
  obtain ⟨hafter', hsurvivors', hwinner'⟩ := @resolvePlayers_eq _ events round h'
  refine ⟨?_, ?_, ?_⟩
  · have htied : ∀ s : ArenaStorage, (resolvePlayers s events round).1.tied =
        decide ((roundTally s round).heads > 0 ∧
          (roundTally s round).heads = (roundTally s round).tails) := by
      intro s
      unfold resolvePlayers
      dsimp only
      split_ifs <;> rfl
    have hwinners : (resolvePlayers (s.savePlayers players) events round).1.winner =
        (resolvePlayers s events round).1.winner := by
      refine Option.ext fun w => ?_
      rw [hwinner', hwinner]
      exact ⟨fun hl => List.perm_singleton.mp (hl ▸ hstay.symm),
        fun hl => List.perm_singleton.mp (hl ▸ hstay)⟩
    have hcounts := hdropped.length_eq
    rw [← @eliminated_resolvePlayers _ events round h',
      ← @eliminated_resolvePlayers _ events round h] at hcounts
    have hsurvive := hstay.length_eq
    rw [← hsurvivors', ← hsurvivors] at hsurvive
    have hties := htied (s.savePlayers players)
    rw [htally, ← htied s] at hties
    cases hr : (resolvePlayers s events round).1
    cases hr' : (resolvePlayers (s.savePlayers players) events round).1
    simp_all
  · have hmem : ∀ p, p ∈ (s.savePlayers players).loadAllPlayers ↔ p ∈ s.loadAllPlayers :=
      fun p => hperm.mem_iff
    rw [hafter, hafter', htally]
    unfold Resolving.after ArenaStorage.savePlayers
    dsimp only
    congr 1
    · funext p
      congr 1
      exact propext (and_congr (hmem p) Iff.rfl)
    · funext k
      congr 1
      exact propext (and_congr Iff.rfl (and_congr (hmem k.1) Iff.rfl))
  · rw [hafter, hafter']
    exact (hdropped.map _).append_left events

end Rounds

/-- Over a list of players without duplicates, a round has the outcome specified, and
    the order of the list does not matter. -/
theorem resolvePlayers_meets (s : ArenaStorage) (events : List ArenaEvent) (round : ℕ)
    (h : s.loadAllPlayers.Nodup) :
    MeetsSpecification s round (resolvePlayers s events round).1
        (resolvePlayers s events round).2.storage ∧
      ∀ players, players.Perm s.loadAllPlayers →
        (resolvePlayers (s.savePlayers players) events round).1 =
            (resolvePlayers s events round).1 ∧
          (resolvePlayers (s.savePlayers players) events round).2.storage =
            (resolvePlayers s events round).2.storage.savePlayers players ∧
          (resolvePlayers (s.savePlayers players) events round).2.events.Perm
            (resolvePlayers s events round).2.events :=
  ⟨meetsSpecification_resolvePlayers h, fun _ hperm => resolvePlayers_savePlayers h hperm⟩

/-- Player 11 has revealed heads, players 12 and 13 tails, and the counter of player 11
    is full. -/
def sampleField : ArenaStorage := { ArenaStorage.fresh with
  players := some [⟨11⟩, ⟨12⟩, ⟨13⟩]
  player := fun p => if p = ⟨11⟩ then some ⟨true, u32Max⟩ else some ⟨true, 4⟩
  choice := fun k => some (if k.1 = ⟨11⟩ then .Heads else .Tails) }

/-- Player 11 wins, in whatever order the players are listed. -/
theorem resolvePlayers_meets_sample : sampleField.loadAllPlayers.Nodup ∧
    (resolvePlayers sampleField [] 1).1 = ⟨2, 1, some ⟨11⟩, false⟩ ∧
    MeetsSpecification sampleField 1 (resolvePlayers sampleField [] 1).1
      (resolvePlayers sampleField [] 1).2.storage :=
  ⟨by decide, by decide +kernel, (resolvePlayers_meets sampleField [] 1 (by decide)).1⟩

/-- A full counter does not grow. -/
theorem rounds_survived_full : ¬ ∀ (s : ArenaStorage) (events : List ArenaEvent) (round : ℕ),
    s.loadAllPlayers.Nodup → ∀ p ∈ (resolvePlayers s events round).2.storage.activePlayers,
      ((resolvePlayers s events round).2.storage.playerState p).roundsSurvived =
        (s.playerState p).roundsSurvived + 1 := by
  intro hgrows
  have hfull : ((resolvePlayers sampleField [] 1).2.storage.playerState ⟨11⟩).roundsSurvived =
      u32Max := by decide +kernel
  have hmore := hgrows sampleField [] 1 (by decide) ⟨11⟩ (by decide +kernel)
  rw [hfull] at hmore
  exact absurd hmore (by decide +kernel)

/-! ## The leaderboard -/

/-- The entries of all players, in the order in which they have joined. -/
def standings (s : ArenaStorage) : List LeaderboardEntry :=
  s.loadAllPlayers.map fun player => ⟨player, (s.playerState player).roundsSurvived⟩

/-- All players, those who have survived more rounds first. -/
def ranking (s : ArenaStorage) : List LeaderboardEntry :=
  (standings s).mergeSort fun a b => b.roundsSurvived ≤ a.roundsSurvived

/-- The ranking lists every player. -/
theorem map_player_ranking (s : ArenaStorage) :
    ((ranking s).map (·.player)).Perm s.loadAllPlayers := by
  have hperm : ((ranking s).map (·.player)).Perm ((standings s).map (·.player)) :=
    (List.mergeSort_perm _ _).map _
  have hplayers : (standings s).map (·.player) = s.loadAllPlayers := by
    unfold standings
    rw [List.map_map]
    exact List.map_id _
  rw [hplayers] at hperm
  exact hperm

/-- The leaderboard is the beginning of the ranking, which lists each player once. -/
theorem buildLeaderboard_eq (s : ArenaStorage) :
    (buildLeaderboard s).loadLeaderboard =
        (ranking s).take (min s.loadLeaderboardLimit s.loadAllPlayers.length) ∧
      ((buildLeaderboard s).loadLeaderboard.map (·.player)).Subperm s.loadAllPlayers ∧
      (s.loadAllPlayers.length ≤ s.loadLeaderboardLimit →
        ((buildLeaderboard s).loadLeaderboard.map (·.player)).Perm s.loadAllPlayers) := by
  have htake : (buildLeaderboard s).loadLeaderboard =
      (ranking s).take (min s.loadLeaderboardLimit s.loadAllPlayers.length) :=
    Selection.selectTop_eq_take _ (standings s)
  have hall := map_player_ranking s
  refine ⟨htake, ?_, ?_⟩
  · rw [htake]
    exact ((List.take_sublist _ _).map _).subperm.trans hall.subperm
  · intro hlimit
    have hlength : (ranking s).length = s.loadAllPlayers.length := by
      rw [← hall.length_eq, List.length_map]
    rw [htake, Nat.min_eq_right hlimit, ← hlength, List.take_length]
    exact hall

end InverseArena.Arena
