import InverseArena.CoinArena.Replay

/-!
# The outcome of a round

`resolve_round` goes through the list of players twice, and a player that has joined twice is in
it twice. What the two loops do, in closed form: the active players without a choice are
eliminated once each, then the entries on the larger side, one by one.

Results:
* `Outcome.of_resolveRound`, `round_decided`: who is eliminated, what is published and recorded, and
  how the game goes on.
* `survivors_pos`: a round in which an active player has a choice leaves somebody in the game.
-/

namespace InverseArena.CoinArena

open Host KeyedMap MachineInt

variable {G H : Type}

/-! ## Who is eliminated -/

/-- An active player without a choice. -/
def ArenaStorage.isAbsent (s : ArenaStorage G) (a : Address) : Bool :=
  s.isPlayerActive a && (s.loadPlayerChoice a).isNone

/-- The absent among `players`, each of them once. -/
def ArenaStorage.absentAmong (s : ArenaStorage G) (players : List Address) : List Address :=
  (players.filter s.isAbsent).eraseDups

/-- The players whose choices count, as often as they are listed. -/
def ArenaStorage.entries (s : ArenaStorage G) : List Address := s.loadAllPlayers.filter s.counts

/-- The side that stays in the game, if the other one is eliminated: the smaller one, and at one
    against one Heads. -/
def survivingSide (heads tails : ℕ) : Option Choice :=
  if heads = 0 ∨ tails = 0 then none
  else if heads = tails then if heads = 1 then some .Heads else none
  else some (if heads < tails then .Heads else .Tails)

/-- The entries that are not on the side that stays. -/
def ArenaStorage.losers (s : ArenaStorage G) : List Address :=
  match survivingSide (countChoice s .Heads s.entries) (countChoice s .Tails s.entries) with
  | some side => s.entries.filter fun a => s.loadPlayerChoice a ≠ some side
  | none => []

/-- Whom `resolve_round` eliminates, in this order. -/
def ArenaStorage.out (s : ArenaStorage G) : List Address :=
  s.absentAmong s.loadAllPlayers ++ s.losers

/-- The entries that are still in the game afterwards. -/
def ArenaStorage.staying (s : ArenaStorage G) : List Address :=
  s.loadAllPlayers.filter fun a => s.isPlayerActive a && decide (a ∉ s.out)

/-- Eliminates one after another. -/
def World.eliminateAll (w : World G H) (players : List Address) : World G H :=
  players.foldl World.eliminate w

/-- A profile after `n` eliminations. -/
def PlayerProfile.eliminated (profile : PlayerProfile) (n : ℕ) : PlayerProfile :=
  if n = 0 then profile
  else { profile with gamesPlayed := satAddU32 profile.gamesPlayed n, survivalStreak := 0 }

/-! ## Eliminations -/

variable {w w' : World G H} {a b : Address} {l : List Address}

@[simp] theorem eliminateAll_nil : w.eliminateAll [] = w := rfl

@[simp] theorem eliminateAll_cons :
    w.eliminateAll (a :: l) = (w.eliminate a).eliminateAll l := rfl

theorem eliminateAll_append (m : List Address) :
    w.eliminateAll (l ++ m) = (w.eliminateAll l).eliminateAll m := List.foldl_append ..

@[simp] theorem loadPlayerChoice_eliminate :
    (w.eliminate a).storage.loadPlayerChoice b = w.storage.loadPlayerChoice b := rfl

@[simp] theorem loadPlayerChoice_eliminateAll :
    (w.eliminateAll l).storage.loadPlayerChoice b = w.storage.loadPlayerChoice b := by
  induction l generalizing w with
  | nil => rfl
  | cons a l ih => rw [eliminateAll_cons, ih, loadPlayerChoice_eliminate]

theorem isPlayerActive_eliminate :
    (w.eliminate a).storage.isPlayerActive b = (w.storage.isPlayerActive b && decide (b ≠ a)) := by
  show (Function.update w.storage.active a (some false) b).getD false = _
  by_cases hb : b = a
  · subst hb
    simp
  · rw [Function.update_of_ne hb]
    simp [hb, ArenaStorage.isPlayerActive]

theorem isPlayerActive_eliminateAll : (w.eliminateAll l).storage.isPlayerActive b =
    (w.storage.isPlayerActive b && decide (b ∉ l)) := by
  induction l generalizing w with
  | nil => simp
  | cons a l ih =>
    rw [eliminateAll_cons, ih, isPlayerActive_eliminate, Bool.and_assoc]
    congr 1
    simp [List.mem_cons, not_or]

theorem events_eliminateAll :
    (w.eliminateAll l).events = w.events ++ l.map .playerEliminated := by
  induction l generalizing w with
  | nil => simp
  | cons a l ih =>
    rw [eliminateAll_cons, ih, List.map_cons]
    show w.events ++ [.playerEliminated a] ++ _ = _
    rw [List.append_assoc]
    rfl

theorem loadPlayerProfile_eliminate : (w.eliminate a).storage.loadPlayerProfile b =
    if b = a then (w.storage.loadPlayerProfile b).eliminated 1
    else w.storage.loadPlayerProfile b := by
  show (Function.update w.storage.profile a _ b).getD {} = _
  by_cases hb : b = a
  · subst hb
    rw [Function.update_self, if_pos rfl]
    rfl
  · rw [Function.update_of_ne hb, if_neg hb]
    rfl

theorem eliminated_eliminated (profile : PlayerProfile) (m n : ℕ) :
    (profile.eliminated m).eliminated n = profile.eliminated (m + n) := by
  unfold PlayerProfile.eliminated
  by_cases hm : m = 0
  · simp [hm]
  · by_cases hn : n = 0
    · simp [hn]
    · have hsum : ¬ m + n = 0 := by omega
      simp only [hm, hn, hsum, if_false]
      congr 1
      unfold satAddU32
      omega

theorem loadPlayerProfile_eliminateAll : (w.eliminateAll l).storage.loadPlayerProfile b =
    (w.storage.loadPlayerProfile b).eliminated (l.count b) := by
  induction l generalizing w with
  | nil => rfl
  | cons a l ih =>
    rw [eliminateAll_cons, ih, loadPlayerProfile_eliminate, List.count_cons]
    by_cases hb : b = a
    · subst hb
      rw [if_pos rfl, eliminated_eliminated, beq_self_eq_true, if_pos rfl, Nat.add_comm]
    · rw [if_neg hb, if_neg (by simpa using Ne.symm hb), Nat.add_zero]

/-- What eliminations leave alone. -/
theorem eliminateAll_rest : w.eliminateAll l = { w with
    events := (w.eliminateAll l).events
    storage := { w.storage with
      active := (w.eliminateAll l).storage.active
      profile := (w.eliminateAll l).storage.profile } } := by
  induction l generalizing w with
  | nil => rfl
  | cons a l ih =>
    rw [eliminateAll_cons]
    conv_lhs => rw [ih]
    rfl

/-! ## The two loops -/

variable {t : Tally G H}

theorem absentAmong_cons_of_isAbsent (h : w.storage.isAbsent a = true) :
    w.storage.absentAmong (a :: l) = a :: (w.eliminate a).storage.absentAmong l := by
  unfold ArenaStorage.absentAmong
  rw [List.filter_cons_of_pos h, List.eraseDups_cons, List.filter_filter]
  congr 2
  refine List.filter_congr fun b _ => ?_
  unfold ArenaStorage.isAbsent
  rw [isPlayerActive_eliminate, loadPlayerChoice_eliminate, Bool.and_comm, Bool.and_right_comm]
  simp only [ne_eq, decide_not]
  rfl

theorem absentAmong_cons_of_not (s : ArenaStorage G) (h : s.isAbsent a = false) :
    s.absentAmong (a :: l) = s.absentAmong l := by
  unfold ArenaStorage.absentAmong
  rw [List.filter_cons_of_neg (by rw [h]; exact Bool.false_ne_true)]

/-- The first loop eliminates the absent and keeps the entries that count. -/
theorem foldl_eliminateAfk_eq (l : List Address) (t : Tally G H) :
    l.foldl eliminateAfk t =
      { activePlayers := t.activePlayers ++ l.filter t.world.storage.counts
        eliminated := t.eliminated + (t.world.storage.absentAmong l).length
        survivors := t.survivors
        world := t.world.eliminateAll (t.world.storage.absentAmong l) } := by
  induction l generalizing t with
  | nil => simp [ArenaStorage.absentAmong]
  | cons a l ih =>
    rw [List.foldl_cons, ih]
    unfold eliminateAfk
    split_ifs with hactive hafk
    · have habsent : t.world.storage.isAbsent a = true := by
        unfold ArenaStorage.isAbsent
        rw [hactive, hafk]
        rfl
      have hcounts : t.world.storage.counts a = false := by
        unfold ArenaStorage.counts
        rw [Option.isNone_iff_eq_none.mp hafk, Option.isSome_none, Bool.and_false]
      rw [absentAmong_cons_of_isAbsent habsent, counts_eliminate hafk,
        List.filter_cons_of_neg (by rw [hcounts]; exact Bool.false_ne_true), List.length_cons,
        eliminateAll_cons]
      dsimp only
      congr 1
      omega
    · have habsent : t.world.storage.isAbsent a = false := by
        unfold ArenaStorage.isAbsent
        rw [Bool.eq_false_iff.mpr hafk, Bool.and_false]
      have hcounts : t.world.storage.counts a = true := by
        unfold ArenaStorage.counts
        rw [hactive, Bool.true_and, ← Option.not_isNone, Bool.eq_false_iff.mpr hafk]
        rfl
      rw [absentAmong_cons_of_not _ habsent, List.filter_cons_of_pos hcounts, List.append_assoc]
      rfl
    · have habsent : t.world.storage.isAbsent a = false := by
        unfold ArenaStorage.isAbsent
        rw [Bool.eq_false_iff.mpr hactive, Bool.false_and]
      have hcounts : t.world.storage.counts a = false := by
        unfold ArenaStorage.counts
        rw [Bool.eq_false_iff.mpr hactive, Bool.false_and]
      rw [absentAmong_cons_of_not _ habsent,
        List.filter_cons_of_neg (by rw [hcounts]; exact Bool.false_ne_true)]

theorem firstPass_eq : firstPass w =
    { activePlayers := w.storage.entries
      eliminated := (w.storage.absentAmong w.storage.loadAllPlayers).length
      survivors := 0
      world := w.eliminateAll (w.storage.absentAmong w.storage.loadAllPlayers) } := by
  unfold firstPass
  rw [foldl_eliminateAfk_eq, List.nil_append, Nat.zero_add]
  rfl

/-- A loop that eliminates one side, over entries with a choice. -/
theorem foldl_keepSide_eq (side : Choice) (l : List Address) (t : Tally G H)
    (hchosen : ∀ a ∈ l, (t.world.storage.loadPlayerChoice a).isSome = true) :
    l.foldl (keepSide side) t =
      { activePlayers := t.activePlayers
        eliminated := t.eliminated +
          (l.filter fun a => t.world.storage.loadPlayerChoice a ≠ some side).length
        survivors := t.survivors +
          (l.filter fun a => t.world.storage.loadPlayerChoice a = some side).length
        world := t.world.eliminateAll
          (l.filter fun a => t.world.storage.loadPlayerChoice a ≠ some side) } := by
  induction l generalizing t with
  | nil => simp
  | cons a l ih =>
    obtain ⟨choice, hchoice⟩ := Option.isSome_iff_exists.mp (hchosen a List.mem_cons_self)
    have hrest : ∀ b ∈ l, (t.world.storage.loadPlayerChoice b).isSome = true :=
      fun b hb => hchosen b (List.mem_cons_of_mem a hb)
    have hhead : keepSide side t a = if choice ≠ side then
        { t with world := t.world.eliminate a, eliminated := t.eliminated + 1 }
        else { t with survivors := t.survivors + 1 } := by
      unfold keepSide
      rw [hchoice]
    rw [List.foldl_cons, hhead]
    split_ifs with hside
    · rw [ih { t with world := t.world.eliminate a, eliminated := t.eliminated + 1 } hrest]
      have hne : some choice ≠ some side := fun h => hside (Option.some.inj h)
      simp only [loadPlayerChoice_eliminate, List.filter_cons, hchoice, hne, ne_eq,
        not_false_eq_true, decide_true, if_true, decide_false, Bool.false_eq_true, if_false,
        List.length_cons, eliminateAll_cons]
      congr 1
      exact Nat.add_right_comm ..
    · obtain rfl : choice = side := not_not.mp hside
      rw [ih { t with survivors := t.survivors + 1 } hrest]
      simp only [List.filter_cons, hchoice, ne_eq, not_true_eq_false, decide_true, if_true,
        decide_false, Bool.false_eq_true, if_false, List.length_cons]
      congr 1
      exact Nat.add_right_comm ..

/-! ## The decision -/

variable {s : ArenaStorage G}

theorem isSome_of_mem_entries (h : a ∈ s.entries) : (s.loadPlayerChoice a).isSome = true := by
  have hcounts := (List.mem_filter.mp h).2
  unfold ArenaStorage.counts at hcounts
  exact (Bool.and_eq_true_iff.mp hcounts).2

theorem mem_absentAmong : a ∈ s.absentAmong l ↔ a ∈ l ∧ s.isAbsent a = true := by
  unfold ArenaStorage.absentAmong
  rw [List.mem_eraseDups, List.mem_filter]

/-- Every entry is on one of the two sides. -/
theorem length_entries :
    s.entries.length = countChoice s .Heads s.entries + countChoice s .Tails s.entries := by
  unfold countChoice
  rw [List.length_eq_countP_add_countP (fun a => s.loadPlayerChoice a = some .Heads)]
  congr 1
  refine List.countP_congr fun a ha => ?_
  obtain ⟨choice, hchoice⟩ := Option.isSome_iff_exists.mp (isSome_of_mem_entries ha)
  rw [hchoice]
  cases choice with
  | Heads => decide
  | Tails => decide

theorem mem_losers_iff (h : a ∈ s.entries) : a ∈ s.losers ↔ ∃ side,
    survivingSide (countChoice s .Heads s.entries) (countChoice s .Tails s.entries) = some side ∧
      s.loadPlayerChoice a ≠ some side := by
  unfold ArenaStorage.losers
  split
  · rename_i side hside
    rw [hside]
    simp [h]
  · rename_i hside
    rw [hside]
    simp

/-- Who stays are the entries that do not lose. -/
theorem staying_eq : s.staying = s.entries.filter (· ∉ s.losers) := by
  unfold ArenaStorage.staying ArenaStorage.entries
  rw [List.filter_filter]
  refine List.filter_congr fun a ha => ?_
  have habsent : a ∈ s.absentAmong s.loadAllPlayers ↔ s.isAbsent a = true := by
    rw [mem_absentAmong, and_iff_right ha]
  unfold ArenaStorage.out
  simp only [List.mem_append, habsent]
  unfold ArenaStorage.isAbsent ArenaStorage.counts
  cases s.isPlayerActive a with
  | false => simp
  | true =>
    cases s.loadPlayerChoice a with
    | none => simp
    | some choice => simp

theorem losers_eq_nil (h : survivingSide (countChoice s .Heads s.entries)
    (countChoice s .Tails s.entries) = none) : s.losers = [] := by
  unfold ArenaStorage.losers
  rw [h]

theorem losers_eq_filter {side : Choice} (h : survivingSide (countChoice s .Heads s.entries)
    (countChoice s .Tails s.entries) = some side) :
    s.losers = s.entries.filter fun a => s.loadPlayerChoice a ≠ some side := by
  unfold ArenaStorage.losers
  rw [h]

theorem staying_eq_filter {side : Choice} (h : survivingSide (countChoice s .Heads s.entries)
    (countChoice s .Tails s.entries) = some side) :
    s.staying = s.entries.filter fun a => s.loadPlayerChoice a = some side := by
  rw [staying_eq]
  refine List.filter_congr fun a ha => ?_
  rw [decide_eq_decide, mem_losers_iff ha, h]
  simp

/-- What the two loops have done in the end. -/
theorem decideRound_eq : decideRound (firstPass w) =
    { activePlayers := w.storage.entries
      eliminated := w.storage.out.length
      survivors := w.storage.staying.length
      world := w.eliminateAll w.storage.out } := by
  have hloses : survivingSide (countChoice w.storage .Heads w.storage.entries)
      (countChoice w.storage .Tails w.storage.entries) = none →
      (⟨w.storage.entries, (firstPass w).eliminated, w.storage.entries.length,
          (firstPass w).world⟩ : Tally G H) =
        { activePlayers := w.storage.entries
          eliminated := w.storage.out.length
          survivors := w.storage.staying.length
          world := w.eliminateAll w.storage.out } := by
    intro hnone
    have hnil := losers_eq_nil hnone
    have hstay : w.storage.staying = w.storage.entries := by
      rw [staying_eq, hnil]
      simp
    unfold ArenaStorage.out
    rw [firstPass_eq, hstay, hnil, List.append_nil]
  have hside : ∀ side, survivingSide (countChoice w.storage .Heads w.storage.entries)
      (countChoice w.storage .Tails w.storage.entries) = some side →
      w.storage.entries.foldl (keepSide side) (firstPass w) =
        { activePlayers := w.storage.entries
          eliminated := w.storage.out.length
          survivors := w.storage.staying.length
          world := w.eliminateAll w.storage.out } := by
    intro side hsome
    unfold ArenaStorage.out
    rw [firstPass_eq, foldl_keepSide_eq, staying_eq_filter hsome, losers_eq_filter hsome,
      List.length_append, eliminateAll_append]
    · simp only [loadPlayerChoice_eliminateAll, Nat.zero_add]
    · intro a ha
      rw [loadPlayerChoice_eliminateAll]
      exact isSome_of_mem_entries ha
  have hcount : ∀ choice, countChoice (firstPass w).world.storage choice w.storage.entries =
      countChoice w.storage choice w.storage.entries := by
    intro choice
    rw [firstPass_eq]
    unfold countChoice
    simp only [loadPlayerChoice_eliminateAll]
  have hlength := length_entries (s := w.storage)
  have hactive : (firstPass w).activePlayers = w.storage.entries := by rw [firstPass_eq]
  unfold decideRound
  dsimp only
  rw [hactive, hcount, hcount]
  unfold survivingSide at hloses hside
  generalize countChoice w.storage .Heads w.storage.entries = heads at *
  generalize countChoice w.storage .Tails w.storage.entries = tails at *
  split_ifs with hempty htie hpair hfewer
  · exact hloses (if_pos hempty)
  · refine hside .Heads ?_
    rw [if_neg hempty, if_pos htie, if_pos (by omega)]
  · refine hloses ?_
    rw [if_neg hempty, if_pos htie, if_neg (by omega)]
  · refine hside .Heads ?_
    rw [if_neg hempty, if_neg htie, if_pos hfewer]
  · refine hside .Tails ?_
    rw [if_neg hempty, if_neg htie, if_neg hfewer]

/-! ## Minorities -/

/-- Nobody with a choice is eliminated where all are on one side or both sides are of the same
    size and larger than one; else one side is eliminated, and the other one is not empty and
    either smaller, or at one against one that of Heads. -/
def MinorityRule (s : ArenaStorage G) : Prop :=
  s.losers = [] ∧ s.staying = s.entries ∧
      ((∃ side, ∀ a ∈ s.entries, s.loadPlayerChoice a = some side) ∨
        ∃ n > 1, ∀ side, countChoice s side s.entries = n) ∨
    ∃ side, s.staying = s.entries.filter (fun a => s.loadPlayerChoice a = some side) ∧
      s.losers = s.entries.filter (fun a => s.loadPlayerChoice a ≠ some side) ∧
      s.staying ≠ [] ∧ (s.staying.length < s.losers.length ∨
        side = .Heads ∧ s.staying.length = 1 ∧ s.losers.length = 1)

theorem eq_of_countChoice_eq_zero {side : Choice} (h : countChoice s side s.entries = 0)
    (ha : a ∈ s.entries) :
    s.loadPlayerChoice a = some (if side = .Heads then .Tails else .Heads) := by
  obtain ⟨choice, hchoice⟩ := Option.isSome_iff_exists.mp (isSome_of_mem_entries ha)
  have hne : choice ≠ side := by
    rintro rfl
    exact List.countP_eq_zero.mp h a ha (decide_eq_true hchoice)
  rw [hchoice]
  cases choice with
  | Heads =>
    cases side with
    | Heads => exact absurd rfl hne
    | Tails => rfl
  | Tails =>
    cases side with
    | Heads => rfl
    | Tails => exact absurd rfl hne

theorem survivingSide_eq_none {heads tails : ℕ} : survivingSide heads tails = none ↔
    heads = 0 ∨ tails = 0 ∨ heads = tails ∧ 1 < heads := by
  unfold survivingSide
  split_ifs with hempty htie hone
  · simp only [true_iff]
    omega
  · simp only [false_iff]
    omega
  · simp only [true_iff]
    omega
  · simp only [false_iff]
    omega

theorem survivingSide_eq_some {heads tails : ℕ} {side : Choice}
    (h : survivingSide heads tails = some side) : 0 < heads ∧ 0 < tails ∧
      (side = .Heads ∧ (heads < tails ∨ heads = 1 ∧ tails = 1) ∨
        side = .Tails ∧ tails < heads) := by
  unfold survivingSide at h
  split_ifs at h with hempty htie hone hfewer
  · cases h
    exact ⟨by omega, by omega, .inl ⟨rfl, .inr ⟨hone, htie ▸ hone⟩⟩⟩
  · cases h
    exact ⟨by omega, by omega, .inl ⟨rfl, .inl hfewer⟩⟩
  · cases h
    exact ⟨by omega, by omega, .inr ⟨rfl, by omega⟩⟩

theorem minorityRule (s : ArenaStorage G) : MinorityRule s := by
  have hlength := length_entries (s := s)
  cases hside : survivingSide (countChoice s .Heads s.entries) (countChoice s .Tails s.entries) with
  | none =>
    have hnil := losers_eq_nil hside
    refine .inl ⟨hnil, ?_, ?_⟩
    · rw [staying_eq, hnil]
      simp
    · obtain hzero | hzero | ⟨htie, hlarge⟩ := survivingSide_eq_none.mp hside
      · exact .inl ⟨_, fun a ha => eq_of_countChoice_eq_zero hzero ha⟩
      · exact .inl ⟨_, fun a ha => eq_of_countChoice_eq_zero hzero ha⟩
      · refine .inr ⟨_, hlarge, fun side => ?_⟩
        cases side with
        | Heads => rfl
        | Tails => exact htie.symm
  | some side =>
    have hstay := staying_eq_filter hside
    have hlose := losers_eq_filter hside
    have hstayed : s.staying.length = countChoice s side s.entries := by
      rw [hstay, ← List.countP_eq_length_filter]
      rfl
    have hlost : s.staying.length + s.losers.length = s.entries.length := by
      rw [hstay, hlose, List.length_eq_length_filter_add (l := s.entries)
        fun a => decide (s.loadPlayerChoice a = some side)]
      simp
    obtain ⟨hheads, htails, hrule⟩ := survivingSide_eq_some hside
    refine .inr ⟨side, hstay, hlose, ?_, ?_⟩
    · rw [← List.length_pos_iff, hstayed]
      obtain ⟨rfl, -⟩ | ⟨rfl, -⟩ := hrule
      · exact hheads
      · exact htails
    · obtain ⟨rfl, hfewer | ⟨hone, hone'⟩⟩ | ⟨rfl, hfewer⟩ := hrule
      · exact .inl (by omega)
      · exact .inr ⟨rfl, by omega, by omega⟩
      · exact .inl (by omega)

/-- A round in which an active player has a choice leaves somebody in the game. -/
theorem survivors_pos (h : s.entries ≠ []) : s.staying ≠ [] := by
  obtain ⟨-, hstay, -⟩ | ⟨_, -, -, hstay, -⟩ := minorityRule s
  · rw [hstay]
    exact h
  · exact hstay

/-! ## The outcome -/

/-- What a round that is resolved in `w` leaves behind. -/
structure Outcome (w : World G H) (result : RoundResult) (w' : World G H) : Prop where
  result : result = ⟨w.round + 1, w.storage.out.length, w.storage.staying.length⟩
  events : w'.events = w.events ++ w.storage.out.map .playerEliminated
  players : w'.storage.loadAllPlayers = w.storage.loadAllPlayers
  active : ∀ a, w'.storage.isPlayerActive a =
    (w.storage.isPlayerActive a && decide (a ∉ w.storage.out))
  profile : ∀ a, w'.storage.loadPlayerProfile a =
    (w.storage.loadPlayerProfile a).eliminated (w.storage.out.count a)
  liveSurvivors : w'.storage.loadGlobalStats = { w.storage.loadGlobalStats with
    liveSurvivors := w.storage.loadGlobalStats.liveSurvivors - w.storage.out.length }
  config : ∃ config, w.storage.config = some config ∧ w'.storage.config = some { config with
    state := if w.storage.staying.length ≤ 1 then .Finished else .InProgress }
  winner : w'.storage.winner = if w.storage.staying.length ≤ 1 then
    w.storage.staying.head?.or w.storage.winner else w.storage.winner

/-- Who stays is who is active afterwards. -/
theorem Outcome.staying_eq {result : RoundResult} (h : Outcome w result w') :
    w'.storage.loadAllPlayers.filter w'.storage.isPlayerActive = w.storage.staying := by
  rw [h.players]
  unfold ArenaStorage.staying
  exact List.filter_congr fun a _ => h.active a

theorem loadGlobalStats_noteEliminated (s : ArenaStorage G) (n : ℕ) :
    (if n > 0 then s.decrementLiveSurvivors n else s).loadGlobalStats =
      { s.loadGlobalStats with liveSurvivors := s.loadGlobalStats.liveSurvivors - n } := by
  split_ifs with hn
  · rfl
  · obtain rfl : n = 0 := by omega
    rfl

theorem Outcome.of_resolveRound {result : RoundResult} (h : resolveRound w = .ok (result, w')) :
    Outcome w result w' := by
  simp only [resolveRound, ArenaStorage.loadConfig, Fallible.bind_eq_ok, check_eq_ok, okOr_eq_ok,
    unwrap_eq_ok, requireNotPaused_eq_ok, Fallible.pure_eq_ok, exists_const, Prod.mk.injEq] at h
  obtain ⟨config, hc, hp, hprog, round, hround, rfl, rfl⟩ := h
  rw [decideRound_eq] at hround ⊢
  dsimp only at hround ⊢
  have hrest := eliminateAll_rest (w := w) (l := w.storage.out)
  have hactive : ∀ a, ((w.eliminateAll w.storage.out).storage.active a).getD false =
      (w.storage.isPlayerActive a && decide (a ∉ w.storage.out)) :=
    fun a => isPlayerActive_eliminateAll
  have hprofile : ∀ a, ((w.eliminateAll w.storage.out).storage.profile a).getD {} =
      (w.storage.loadPlayerProfile a).eliminated (w.storage.out.count a) :=
    fun a => loadPlayerProfile_eliminateAll
  have hevents := events_eliminateAll (w := w) (l := w.storage.out)
  generalize w.eliminateAll w.storage.out = world at hrest hactive hprofile hevents hround ⊢
  generalize world.storage.active = active at hrest hactive
  generalize world.storage.profile = profile at hrest hprofile
  generalize world.events = events at hrest hevents
  subst hrest
  have hstats := loadGlobalStats_noteEliminated
    { w.storage with active := active, profile := profile } w.storage.out.length
  rw [noteEliminated_eq] at hround hstats ⊢
  rw [ArenaStorage.clearChoices_eq] at hround ⊢
  generalize (if w.storage.out.length > 0 then _ else _ : ArenaStorage G).globalStats = stats
    at hround hstats ⊢
  obtain rfl := checkedAddU32_eq_some hround
  have hfind : w.storage.loadAllPlayers.find? (fun a => (active a).getD false) =
      w.storage.staying.head? := by
    rw [← List.head?_filter]
    unfold ArenaStorage.staying
    exact congrArg List.head? (List.filter_congr fun a _ => hactive a)
  -- the state of the game and the winner depend on who stays, the rest does not
  have hout : ∀ v : World G H, v.events = events → v.storage.players = w.storage.players →
      v.storage.active = active → v.storage.profile = profile → v.storage.globalStats = stats →
      v.storage.config = some { config with
        state := if w.storage.staying.length ≤ 1 then .Finished else .InProgress } →
      v.storage.winner = (if w.storage.staying.length ≤ 1 then
        w.storage.staying.head?.or w.storage.winner else w.storage.winner) →
      Outcome w ⟨w.round + 1, w.storage.out.length, w.storage.staying.length⟩ v := by
    intro v hevents' hplayers hactive' hprofile' hstats' hconfig hwinner
    refine ⟨rfl, hevents'.trans hevents, ?_, ?_, ?_, ?_, ⟨config, hc, hconfig⟩, hwinner⟩
    · unfold ArenaStorage.loadAllPlayers
      rw [hplayers]
    · intro a
      unfold ArenaStorage.isPlayerActive
      rw [hactive']
      exact hactive a
    · intro a
      unfold ArenaStorage.loadPlayerProfile
      rw [hprofile']
      exact hprofile a
    · unfold ArenaStorage.loadGlobalStats at hstats ⊢
      rw [hstats']
      exact hstats
  by_cases hover : w.storage.staying.length ≤ 1
  · rw [if_pos hover] at hout ⊢
    rw [if_pos hover] at hout
    split
    · rename_i winner hhead
      have hfirst := hfind.symm.trans hhead
      exact hout _ rfl rfl rfl rfl rfl rfl
        (congrArg (Option.or · w.storage.winner) hfirst).symm
    · rename_i hhead
      have hfirst := hfind.symm.trans hhead
      exact hout _ rfl rfl rfl rfl rfl rfl
        (congrArg (Option.or · w.storage.winner) hfirst).symm
  · rw [if_neg hover] at hout ⊢
    rw [if_neg hover] at hout
    refine hout _ rfl rfl rfl rfl rfl ?_ rfl
    show w.storage.config = _
    rw [hc, ← hprog]

/-- Only a game in progress is resolved. -/
theorem inProgress_of_resolveRound {result : RoundResult} (h : resolveRound w = .ok (result, w')) :
    ∃ config, w.storage.config = some config ∧ config.state = .InProgress := by
  simp only [resolveRound, ArenaStorage.loadConfig, Fallible.bind_eq_ok, check_eq_ok,
    okOr_eq_ok] at h
  obtain ⟨config, hc, -, -, -, hprog, -⟩ := h
  exact ⟨config, hc, hprog⟩

theorem Outcome.of_exec {env : Env G H} {auths : List Address} {c : Call}
    (hres : c.isResolution = true) (h : exec env auths c w = .ok w') :
    (∃ result, Outcome w result w') ∧
      ∃ config, w.storage.config = some config ∧ config.state = .InProgress := by
  cases c with
  | resolveRound =>
    obtain ⟨⟨result, w₁⟩, hr, rfl⟩ := Fallible.map_eq_ok.mp h
    exact ⟨⟨result, .of_resolveRound hr⟩, inProgress_of_resolveRound hr⟩
  | autoResolve =>
    obtain ⟨⟨result, w₁⟩, hr, rfl⟩ := Fallible.map_eq_ok.mp h
    simp only [autoResolve, Fallible.bind_eq_ok] at hr
    obtain ⟨config, -, u, -, v, -, hr⟩ := hr
    exact ⟨⟨result, .of_resolveRound hr⟩, inProgress_of_resolveRound hr⟩
  | _ => cases hres

/-- Every resolution, in whatever state and with players listed as often as they please,
    eliminates the absent and the larger side, and counts and records just that. -/
theorem round_decided {env : Env G H} {auths : List Address} {c : Call}
    (hres : c.isResolution = true) (h : Step env w (.call auths c) w') :
    (∃ result, Outcome w result w') ∧ MinorityRule w.storage := by
  cases h with
  | call _ hexec => exact ⟨(Outcome.of_exec hres hexec).1, minorityRule w.storage⟩

theorem round_decided_sample : ∃ tr t u,
    Transition.Run (Step sampleEnv) sampleWorld tr t ∧
      Step sampleEnv t (.call [] .resolveRound) u ∧ t.storage.out = [⟨12⟩] ∧
      (∃ result, Outcome t result u) ∧ MinorityRule t.storage := by
  have hreplay : ∃ r ∈ Transition.replay (perform sampleEnv) (sampleJoins 3 ++
      sampleGame.take 3) [] sampleWorld,
      ∃ s ∈ perform sampleEnv (.call [] .resolveRound) r.2, r.2.storage.out = [⟨12⟩] := by
    decide +kernel
  obtain ⟨tr, t, u, hrun, hstep, hout⟩ := exists_run_call _ _ _
    (P := fun _ t _ => t.storage.out = [⟨12⟩]) hreplay
  exact ⟨tr, t, u, hrun, hstep, hout, round_decided rfl hstep⟩

end InverseArena.CoinArena
