import InverseArena.CoinArena.Outcome

/-!
# How a game ends

An arena that is set up once. Its winner is stored by the resolution that leaves a single entry in
the game; a game that is finished otherwise, by `finish_game` or because nobody has made a choice,
has no winner, and then neither `claim` nor `claim_refund` ever pays anybody.

Results:
* `Ends.step`: what each step keeps.
* `endings_of_run`: who wins, when a pot is stranded, and that it stays so.
-/

namespace InverseArena.CoinArena

open Host KeyedMap MachineInt Transition

variable {G H : Type}

/-- `initialize` is called at most once. -/
def SetsUpOnce (t : World G H) : Action H → Prop
  | .call _ (.initializeArena _) => t.storage.config = none
  | _ => True

instance (t : World G H) (a : Action H) : Decidable (SetsUpOnce t a) :=
  decidable_of_iff ((match a with
    | .call _ (.initializeArena _) => decide (t.storage.config = none)
    | _ => true) = true) (by unfold SetsUpOnce; split <;> simp)

/-- The players that have joined, in this order. -/
def joiners : List (World G H × Action H) → List Address
  | (_, .call _ (.join player)) :: tr => joiners tr ++ [player]
  | _ :: tr => joiners tr
  | [] => []

/-- The game is over and nobody is stored as its winner. -/
def Stranded (w : World G H) : Prop :=
  (∃ config ∈ w.storage.config, config.state = .Finished) ∧ w.storage.winner = none

instance (w : World G H) : Decidable (Stranded w) :=
  inferInstanceAs (Decidable ((∃ config ∈ w.storage.config, config.state = .Finished) ∧
    w.storage.winner = none))

/-- The steps that end a game without a winner, or forget the winner of a finished one. -/
def Strands (t : World G H) : Action H → Prop
  | .call _ .finishGame => True
  | .call _ .cleanupArena => ∃ config ∈ t.storage.config, config.state = .Finished
  | .call _ c => c.isResolution = true ∧ t.storage.entries = []
  | _ => False

/-- A call that pays a prize or a refund. -/
def Action.isPayout : Action H → Bool
  | .call _ (.claim _) | .call _ (.claimRefund _) => true
  | _ => false

/-- After the steps `tr` of an arena that is set up once. -/
structure Ends (tr : List (World G H × Action H)) (w : World G H) : Prop where
  /-- The winner holds the only entry that is still in the game. -/
  won : ∀ p ∈ w.storage.winner, (∃ config ∈ w.storage.config, config.state = .Finished) ∧
    w.storage.loadAllPlayers.filter w.storage.isPlayerActive = [p]
  /-- Everybody who joined is listed until the players of a finished game are forgotten. -/
  listed : w.storage.loadAllPlayers = joiners tr ∨ w.storage.winner = none ∧
    ∃ config ∈ w.storage.config, config.state = .Finished ∨ config.state = .Cancelled
  stranded : Stranded w ↔ ∃ e ∈ tr, Strands e.1 e.2

variable {env : Env G H} {auths : List Address} {t u w : World G H} {a : Action H} {c : Call}
variable {tr : List (World G H × Action H)}

/-! ## One step -/

/-- A step that leaves the players and the winner alone, and the state of the game, too. -/
theorem Ends.frame (h : Ends tr t) (hjoin : joiners ((t, a) :: tr) = joiners tr)
    (hstrands : ¬ Strands t a) (hplayers : u.storage.players = t.storage.players)
    (hactive : u.storage.active = t.storage.active) (hwinner : u.storage.winner = t.storage.winner)
    (hstate : u.storage.config.map ArenaConfig.state = t.storage.config.map ArenaConfig.state) :
    Ends ((t, a) :: tr) u := by
  have hsome : ∀ P : GameState → Prop, (∃ config ∈ u.storage.config, P config.state) ↔
      ∃ config ∈ t.storage.config, P config.state := by
    intro P
    have hmap : ∀ s : Option ArenaConfig, (∃ config ∈ s, P config.state) ↔
        ∃ state ∈ s.map ArenaConfig.state, P state := by
      intro s
      simp [Option.mem_def]
    rw [hmap, hmap, hstate]
  have hload : u.storage.loadAllPlayers = t.storage.loadAllPlayers := by
    unfold ArenaStorage.loadAllPlayers
    rw [hplayers]
  have hflag : u.storage.isPlayerActive = t.storage.isPlayerActive := by
    funext p
    unfold ArenaStorage.isPlayerActive
    rw [hactive]
  refine ⟨fun p hp => ?_, ?_, ?_⟩
  · rw [hwinner] at hp
    rw [hload, hflag, hsome (· = .Finished)]
    exact h.won p hp
  · rw [hload, hwinner, hjoin, hsome fun state => state = .Finished ∨ state = .Cancelled]
    exact h.listed
  · unfold Stranded
    rw [hwinner, hsome (· = .Finished), List.exists_mem_cons_iff, or_iff_right hstrands]
    exact h.stranded

/-- While the game is not over there is no winner, everybody who joined is listed, and no step has
    stranded the pot. -/
theorem Ends.running (h : Ends tr t) (hnot : ∀ config ∈ t.storage.config,
    config.state ≠ .Finished ∧ config.state ≠ .Cancelled) :
    t.storage.winner = none ∧ t.storage.loadAllPlayers = joiners tr ∧
      ¬ ∃ e ∈ tr, Strands e.1 e.2 := by
  have hwinner : t.storage.winner = none := by
    cases hw : t.storage.winner with
    | none => rfl
    | some p =>
      obtain ⟨⟨config, hc, hstate⟩, -⟩ := h.won p hw
      exact absurd hstate (hnot config hc).1
  refine ⟨hwinner, ?_, fun hstrands => ?_⟩
  · obtain hlisted | ⟨-, config, hc, hstate⟩ := h.listed
    · exact hlisted
    · exact (hstate.elim (hnot config hc).1 (hnot config hc).2).elim
  · obtain ⟨⟨config, hc, hstate⟩, -⟩ := h.stranded.mpr hstrands
    exact (hnot config hc).1 hstate

/-- A step of a game that is not over, after which there is no winner. -/
theorem Ends.of_running (hstrands : ¬ ∃ e ∈ tr, Strands e.1 e.2)
    (hwinner : u.storage.winner = none)
    (hlisted : u.storage.loadAllPlayers = joiners ((t, a) :: tr))
    (hstranded : (∃ config ∈ u.storage.config, config.state = .Finished) ↔ Strands t a) :
    Ends ((t, a) :: tr) u where
  won p hp := by
    rw [hwinner] at hp
    cases hp
  listed := .inl hlisted
  stranded := by
    unfold Stranded
    rw [hstranded, List.exists_mem_cons_iff, or_iff_left hstrands, and_iff_left hwinner]

/-- A resolution. -/
theorem Ends.resolve (h : Ends tr t) (hres : c.isResolution = true) {result : RoundResult}
    (hout : Outcome t result u) (hprog : ∀ config ∈ t.storage.config, config.state = .InProgress) :
    Ends ((t, .call auths c) :: tr) u := by
  obtain ⟨hwinner, hlisted, hstrands⟩ := h.running fun config hc => by simp [hprog config hc]
  have hjoin : joiners ((t, .call auths c) :: tr) = joiners tr := by
    cases c with
    | resolveRound | autoResolve => rfl
    | _ => cases hres
  have hstrand : Strands t (.call auths c : Action H) ↔ t.storage.entries = [] := by
    cases c with
    | resolveRound | autoResolve => exact and_iff_right rfl
    | _ => cases hres
  obtain ⟨config, hc, hc'⟩ := hout.config
  have hfinished : (∃ config ∈ u.storage.config, config.state = .Finished) ↔
      t.storage.staying.length ≤ 1 := by
    rw [hc']
    simp only [Option.mem_def, Option.some.injEq, exists_eq_left']
    split_ifs with hover <;> simp [hover]
  have hfound := hout.winner
  rw [hwinner, Option.or_none] at hfound
  have hempty : t.storage.staying = [] ↔ t.storage.entries = [] := by
    refine ⟨fun hnil => ?_, fun hnil => ?_⟩
    · by_contra hne
      exact survivors_pos hne hnil
    · rw [CoinArena.staying_eq, hnil, List.filter_nil]
  refine ⟨fun p hp => ?_, .inl ?_, ?_⟩
  · rw [hfinished, hout.staying_eq]
    rw [hfound] at hp
    split_ifs at hp with hover
    · refine ⟨hover, ?_⟩
      cases hstay : t.storage.staying with
      | nil =>
        rw [hstay] at hp
        cases hp
      | cons b rest =>
        rw [hstay] at hp hover
        obtain rfl := Option.some.inj hp
        have hrest : rest = [] := by
          rw [← List.length_eq_zero_iff]
          rw [List.length_cons] at hover
          omega
        rw [hrest]
    · cases hp
  · rw [hout.players, hlisted, hjoin]
  · rw [List.exists_mem_cons_iff, or_iff_left hstrands]
    show Stranded u ↔ Strands t (.call auths c)
    rw [hstrand, ← hempty]
    unfold Stranded
    rw [hfinished, hfound]
    split_ifs with hover
    · rw [and_iff_right hover, List.head?_eq_none_iff]
    · refine iff_of_false (fun hboth => hover hboth.1) fun hnil => hover ?_
      rw [hnil]
      exact Nat.zero_le 1

/-- A call that is neither a join nor ends a game. -/
def Call.isQuiet : Call → Bool
  | .join _ | .finishGame | .cleanupArena | .resolveRound | .autoResolve => false
  | _ => true

theorem joiners_of_isQuiet (h : c.isQuiet = true) :
    joiners ((t, .call auths c) :: tr) = joiners tr := by
  cases c with
  | join => cases h
  | _ => rfl

theorem not_strands_of_isQuiet (h : c.isQuiet = true) :
    ¬ Strands t (.call auths c : Action H) := by
  cases c with
  | finishGame | cleanupArena | resolveRound | autoResolve => cases h
  | _ => exact fun hstrands => nomatch hstrands.1

theorem Call.isQuiet_of (h : c.isTuning = true ∨ c.isGlobal = true) : c.isQuiet = true := by
  cases c with
  | join | finishGame | cleanupArena | resolveRound | autoResolve => simp [isTuning, isGlobal] at h
  | _ => rfl

/-- A call that is no resolution. -/
theorem Ends.effect (h : Ends tr t) (honce : SetsUpOnce t (.call auths c))
    (hres : c.isResolution = false) (heff : Effect env auths t c u) :
    Ends ((t, .call auths c) :: tr) u := by
  have hquiet : ∀ {config config' : ArenaConfig}, c.isQuiet = true →
      t.storage.config = some config → u.storage.config = some config' →
      config'.state = config.state → u.storage.players = t.storage.players →
      u.storage.active = t.storage.active → u.storage.winner = t.storage.winner →
      Ends ((t, .call auths c) :: tr) u := by
    intro config config' hq hc hc' hstate hplayers hactive hwinner
    refine h.frame (joiners_of_isQuiet hq) (not_strands_of_isQuiet hq) hplayers hactive hwinner ?_
    rw [hc, hc', Option.map_some, Option.map_some, hstate]
  have hrunning : ∀ {config : ArenaConfig}, t.storage.config = some config →
      config.state = .Open ∨ config.state = .InProgress → ∀ config ∈ t.storage.config,
        config.state ≠ .Finished ∧ config.state ≠ .Cancelled := by
    intro config hc hstate config' hc'
    rw [hc] at hc'
    obtain rfl := Option.some.inj hc'
    obtain hstate | hstate := hstate <;> simp [hstate]
  cases heff with
  | initialized _ _ _ =>
    have hnone : t.storage.config = none := honce
    obtain ⟨hwinner, hlisted, hstrands⟩ := h.running fun config hc => by simp [hnone] at hc
    exact .of_running hstrands hwinner hlisted
      (iff_of_false (by simp [InitializeArgs.config]) fun hs => nomatch hs.1)
  | configured hc => exact hquiet rfl hc rfl rfl rfl rfl rfl
  | tuned ht hc _ hc' => exact hquiet (Call.isQuiet_of (.inl ht)) hc hc' rfl rfl rfl rfl
  | regulated hg =>
    have hq := Call.isQuiet_of (.inr hg)
    exact h.frame (joiners_of_isQuiet hq) (not_strands_of_isQuiet hq) rfl rfl rfl rfl
  | started hc _ _ hopen =>
    obtain ⟨hwinner, hlisted, hstrands⟩ := h.running (hrunning hc (.inl hopen))
    exact .of_running hstrands hwinner hlisted (iff_of_false (by simp) fun hs => nomatch hs.1)
  | finished hc _ _ hprog =>
    obtain ⟨hwinner, hlisted, hstrands⟩ := h.running (hrunning hc (.inr hprog))
    exact .of_running hstrands hwinner hlisted (iff_of_true (by simp) trivial)
  | cancelled hc hopen hcall =>
    obtain ⟨hwinner, hlisted, hstrands⟩ := h.running (hrunning hc (.inl hopen))
    obtain ⟨rfl, -⟩ | ⟨rfl, -⟩ := hcall
    · exact .of_running hstrands hwinner hlisted (iff_of_false (by simp) fun hs => nomatch hs.1)
    · exact .of_running hstrands hwinner hlisted (iff_of_false (by simp) fun hs => nomatch hs.1)
  | proposed hc => exact hquiet rfl hc hc rfl rfl rfl rfl
  | accepted hc => exact hquiet rfl hc rfl rfl rfl rfl rfl
  | joined hc _ hopen =>
    obtain ⟨hwinner, hlisted, hstrands⟩ := h.running (hrunning hc (.inl hopen))
    refine .of_running hstrands hwinner ?_ (iff_of_false (by simp [hopen]) fun hs => nomatch hs.1)
    show t.storage.loadAllPlayers ++ _ = _
    rw [hlisted]
    rfl
  | chosen hc => exact hquiet rfl hc hc rfl rfl rfl rfl
  | roundStarted hc => exact hquiet rfl hc hc rfl rfl rfl rfl
  | committed hc => exact hquiet rfl hc hc rfl rfl rfl rfl
  | revealed hc => exact hquiet rfl hc hc rfl rfl rfl rfl
  | resolved hres' =>
    rw [hres] at hres'
    cases hres'
  | claimed _ hc => exact hquiet rfl hc hc rfl rfl rfl rfl
  | @cleaned config hc _ hover =>
    have hstate : (∃ config ∈ t.storage.cleanupArenaData.config, config.state = .Finished) ↔
        ∃ config ∈ t.storage.config, config.state = .Finished := by
      rw [ArenaStorage.cleanupArenaData_eq]
    rw [ArenaStorage.cleanupArenaData_eq] at hstate
    rw [ArenaStorage.cleanupArenaData_eq]
    refine ⟨(fun p hp => nomatch hp), .inr ⟨rfl, config, hc, hover⟩, ?_⟩
    unfold Stranded
    rw [and_iff_left rfl, List.exists_mem_cons_iff, ← h.stranded]
    refine ⟨.inl, ?_⟩
    rintro (hfin | hfin)
    · exact hfin
    · exact hfin.1
  | refunded _ hc => exact hquiet rfl hc hc rfl rfl rfl rfl
  | staked _ _ _ hc => exact hquiet rfl hc rfl rfl rfl rfl rfl
  | unstaked _ _ hc => exact hquiet rfl hc rfl rfl rfl rfl rfl
  | yielded _ _ hc => exact hquiet rfl hc hc rfl rfl rfl rfl

theorem Ends.step (h : Ends tr t) (honce : SetsUpOnce t a) (hs : Step env t a u) :
    Ends ((t, a) :: tr) u := by
  cases hs with
  | @call _ auths c _ hexec =>
    by_cases hres : c.isResolution = true
    · obtain ⟨⟨result, hout⟩, config, hc, hprog⟩ := Outcome.of_exec hres hexec
      refine h.resolve hres hout fun config' hc' => ?_
      rw [hc] at hc'
      obtain rfl := Option.some.inj hc'
      exact hprog
    · exact h.effect honce (Bool.eq_false_iff.mpr hres) (exec_effect hexec)
  | external _ => exact h.frame rfl (fun hs => hs) rfl rfl rfl rfl
  | tick _ _ _ => exact h.frame rfl (fun hs => hs) rfl rfl rfl rfl

/-! ## Runs -/

theorem ends_of_run {globals : G} {outside : H} {now sequence : ℕ}
    (hrun : Run (Step env) (.fresh globals outside now sequence) tr w)
    (honce : ∀ e ∈ tr, SetsUpOnce e.1 e.2) : Ends tr w := by
  induction hrun with
  | nil =>
    refine ⟨(fun p hp => nomatch hp), .inl rfl, iff_of_false ?_ ?_⟩
    · rintro ⟨⟨config, hc, -⟩, -⟩
      cases hc
    · rintro ⟨e, he, -⟩
      cases he
  | snoc _ hs ih =>
    exact (ih fun e he => honce e (List.mem_cons_of_mem _ he)).step (honce _ List.mem_cons_self) hs

/-- Nobody is paid out of a stranded pot. -/
theorem Stranded.isPayout_eq_false (h : Stranded w) (hs : Step env w a u) : a.isPayout = false := by
  obtain ⟨⟨config, hc, hstate⟩, hwinner⟩ := h
  cases hs with
  | @call _ auths c _ hexec =>
    have heff := exec_effect hexec
    cases c with
    | claim winner =>
      cases heff with
      | tuned ht => cases ht
      | regulated hg => cases hg
      | cancelled _ _ hcall => simp at hcall
      | resolved hres => cases hres
      | claimed _ _ _ _ _ hstored =>
        rw [hwinner] at hstored
        cases hstored
    | claimRefund player =>
      cases heff with
      | tuned ht => cases ht
      | regulated hg => cases hg
      | cancelled _ _ hcall => simp at hcall
      | resolved hres => cases hres
      | refunded _ hc' hcancelled =>
        rw [hc] at hc'
        obtain rfl := Option.some.inj hc'
        rw [hstate] at hcancelled
        cases hcancelled
    | _ => rfl
  | external _ => rfl
  | tick _ _ _ => rfl

/-- In every run of an arena that is set up once: the winner has joined once, and everybody else
    who has joined is out of the game; the pot is stranded from the first moment on that the game
    is finished by hand, or a round is resolved in which no active player has made a choice, or
    the players of a finished game are forgotten; and then nobody is paid a prize or a refund. -/
theorem endings_of_run {globals : G} {outside : H} {now sequence : ℕ}
    (hrun : Run (Step env) (.fresh globals outside now sequence) tr w)
    (honce : ∀ e ∈ tr, SetsUpOnce e.1 e.2) :
    (∀ p ∈ w.storage.winner, (joiners tr).filter w.storage.isPlayerActive = [p]) ∧
      (Stranded w ↔ ∃ e ∈ tr, Strands e.1 e.2) ∧
      ∀ a u, Stranded w → Step env w a u → a.isPayout = false := by
  have h := ends_of_run hrun honce
  refine ⟨fun p hp => ?_, h.stranded, fun a u hstranded hs => hstranded.isPayout_eq_false hs⟩
  obtain hlisted | ⟨hnone, -⟩ := h.listed
  · rw [← hlisted]
    exact (h.won p hp).2
  · rw [hnone] at hp
    cases hp

/-- Players 11 and 12 join, the game starts, and nobody makes a choice. -/
theorem endings_of_run_sample : ∃ tr w, Run (Step sampleEnv) sampleWorld tr w ∧ Stranded w ∧
    (∀ p ∈ w.storage.winner, (joiners tr).filter w.storage.isPlayerActive = [p]) ∧
      (Stranded w ↔ ∃ e ∈ tr, Strands e.1 e.2) ∧
      ∀ a u, Stranded w → Step sampleEnv w a u → a.isPayout = false := by
  have hreplay : ∃ r ∈ replay (perform sampleEnv)
      (sampleJoins 3 ++ [.call [⟨10⟩] .startGame, .call [] .resolveRound]) [] sampleWorld,
      Stranded r.2 ∧ ∀ e ∈ r.1, SetsUpOnce e.1 e.2 := by
    decide +kernel
  obtain ⟨tr, w, hrun, hstranded, honce⟩ := exists_run _
    (P := fun tr w => Stranded w ∧ ∀ e ∈ tr, SetsUpOnce e.1 e.2) hreplay
  exact ⟨tr, w, hrun, hstranded, endings_of_run hrun honce⟩

end InverseArena.CoinArena
