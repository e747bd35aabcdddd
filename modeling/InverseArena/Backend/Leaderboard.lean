import InverseArena.Library.Buffers
import InverseArena.Library.Json
import InverseArena.Library.Ranking
import Mathlib.Data.Prod.Lex

/-!
# The leaderboard

`backend/src/controllers/leaderboard.controller.ts`: the pages of the ranking, the cursors
that lead from one to the next, and a client that follows them. Each page asks the database
again; the query orders by the total yield and the arenas won, and by nothing else.

Results:
* `decodeCursor_encodeCursor`: a cursor leads to the offset that it was made for.
* `decodeCursor_natural_iff`: which texts lead to an offset that is a natural number.
* `walk_eq`: the pages that a client receives, and that they end.
* `leaderboard_iff`: which players are visited exactly once, whatever the order of ties.
-/

namespace InverseArena.Backend

open Ranking Buffers

/-! ## `leaderboard.controller.ts` -/

/-- `RawRow`. -/
structure RawRow where
  id : String
  walletAddress : String
  totalYield : ℚ
  arenasWon : ℕ
  survivalStreak : ℕ
  deriving DecidableEq, Repr

/-- `PlayerStats`. -/
structure PlayerStats where
  id : String
  rank : ℕ
  walletAddress : String
  survivalStreak : Number
  totalYield : Number
  arenasWon : Number
  deriving DecidableEq, Repr

/-- `ORDER BY "totalYield" DESC, "arenasWon" DESC`. -/
def RawRow.key (row : RawRow) : ℚ ×ₗ ℕ := toLex (row.totalYield, row.arenasWon)

/-- The entry at the place `i`. -/
def playerStats (i : ℕ) (row : RawRow) : PlayerStats where
  id := row.id
  walletAddress := row.walletAddress
  totalYield := .ofRat row.totalYield
  arenasWon := .ofRat row.arenasWon
  survivalStreak := .ofRat row.survivalStreak
  rank := i + 1

/-- `buildRankedPlayers()`, where the query has returned `rows`. -/
def buildRankedPlayers (rows : List RawRow) : List PlayerStats := rows.mapIdx playerStats

/-- `encodeCursor(offset)`. -/
def encodeCursor (offset : Number) : Text :=
  let payload := Json.stringify (.object [(.ofString "offset", .number offset)])
  base64urlEncode ((utf8Encode payload).map UInt8.ofNat)

/-- `payload.offset`; `none` where it is undefined or something throws. -/
def payloadOffset (cursor : Text) : Option Json :=
  match Json.parse (utf8Decode ((base64urlDecode cursor).map UInt8.toNat)) with
  | some (.object fields) => Json.field? fields (.ofString "offset")
  | _ => none

/-- `x < 0`. -/
def isNegative : Number → Bool
  | .finite x => x < 0
  | .infinite negative => negative

/-- `decodeCursor(cursor)`. -/
def decodeCursor (cursor : Text) : Number :=
  match payloadOffset cursor with
  | some (.number offset) => if isNegative offset then .finite 0 else offset
  | _ => .finite 0

/-- `offset + limit`. -/
def plus : Number → ℕ → Number
  | .finite x, n => .ofRat (x + n)
  | .infinite negative, _ => .infinite negative

/-- `x < n`. -/
def isBelow : Number → ℕ → Bool
  | .finite x, n => x < n
  | .infinite negative, _ => negative

/-- What `slice` makes of a number that is not negative, in a list with `length` entries. -/
def sliceIndex (length : ℕ) : Number → ℕ
  | .finite x => min ⌊x⌋₊ length
  | .infinite _ => length

/-- A response. -/
structure LeaderboardPage where
  players : List PlayerStats
  nextCursor : Option Text
  deriving DecidableEq, Repr

/-- `getLeaderboard`, with a limit that has been validated, where the query has returned
    `rows`. -/
def getLeaderboard (limit : ℕ) (cursor : Option Text) (rows : List RawRow) : LeaderboardPage :=
  let offset := match cursor with
    | some cursor => if cursor = [] then .finite 0 else decodeCursor cursor
    | none => .finite 0
  let rankedPlayers := buildRankedPlayers rows
  let page := (rankedPlayers.take (sliceIndex rankedPlayers.length (plus offset limit))).drop
    (sliceIndex rankedPlayers.length offset)
  let hasMore := isBelow (plus offset limit) rankedPlayers.length
  ⟨page, if hasMore then some (encodeCursor (plus offset limit)) else none⟩

/-! ## Following the cursors -/

/-- The players that are ranked; they are the entries of an array. -/
structure Leaderboard where
  rows : List RawRow
  nodup : (rows.map (·.id)).Nodup
  length_lt : rows.length < 2 ^ 32

/-- A row may stand before another one. -/
def RawRow.Before (a b : RawRow) : Prop := b.key ≤ a.key

instance : DecidableRel RawRow.Before := fun a b => inferInstanceAs (Decidable (b.key ≤ a.key))

instance : Std.Total RawRow.Before := ⟨fun a b => le_total b.key a.key⟩

instance : IsTrans RawRow RawRow.Before := ⟨fun _ _ _ hab hbc => le_trans hbc hab⟩

/-- A ranking of the players. -/
def Leaderboard.ranked (board : Leaderboard) : List RawRow :=
  board.rows.insertionSort RawRow.Before

/-- The pages that a client receives from the `k`-th request on, where the `k`-th query
    returns `queries k`; `none` if there are more than `fuel`. -/
def walk (limit : ℕ) (queries : ℕ → List RawRow) :
    ℕ → ℕ → Option Text → Option (List (List PlayerStats))
  | 0, _, _ => none
  | fuel + 1, k, cursor =>
    let response := getLeaderboard limit cursor (queries k)
    match response.nextCursor with
    | none => some [response.players]
    | some nextCursor =>
      (walk limit queries fuel (k + 1) (some nextCursor)).map (response.players :: ·)

/-- The walk from the first page ends, and has visited every player exactly once. -/
def VisitsAll (limit : ℕ) (queries : ℕ → List RawRow) (board : Leaderboard) : Prop :=
  ∃ fuel pages, walk limit queries fuel 0 none = some pages ∧
    (pages.flatten.map (·.id)).Perm (board.rows.map (·.id))

/-- The number in a cursor is infinite or has a fraction, and is not negative. -/
def Astray (cursor : Text) : Prop :=
  ∃ x, payloadOffset cursor = some (.number x) ∧ isNegative x = false ∧
    ∀ n : ℕ, x ≠ .finite n

variable {board : Leaderboard} {limit n : ℕ} {rows : List RawRow} {queries : ℕ → List RawRow}
variable {cursor : Text}

/-! ## Cursors -/

/-- Which texts lead to an offset that is a natural number. -/
theorem decodeCursor_natural_iff (cursor : Text) :
    (∃ n : ℕ, decodeCursor cursor = .finite n) ↔ ¬ Astray cursor := by
  have hzero : ∃ n : ℕ, Number.finite 0 = .finite n := ⟨0, by rw [Nat.cast_zero]⟩
  unfold decodeCursor Astray
  cases hpayload : payloadOffset cursor with
  | none => exact iff_of_true hzero fun ⟨x, hx, _⟩ => nomatch hx
  | some j =>
    cases j with
    | number x =>
      dsimp only
      cases hsign : isNegative x with
      | true =>
        rw [if_pos rfl]
        refine iff_of_true hzero ?_
        rintro ⟨y, hy, hpositive, -⟩
        cases hy
        rw [hsign] at hpositive
        cases hpositive
      | false =>
        rw [if_neg Bool.false_ne_true]
        constructor
        · rintro ⟨n, hn⟩ ⟨y, hy, -, hastray⟩
          cases hy
          exact hastray n hn
        · intro hnot
          by_contra hnone
          exact hnot ⟨x, rfl, hsign, fun n hn => hnone ⟨n, hn⟩⟩
    | null | bool _ | string _ | array _ | object _ =>
      exact iff_of_true hzero fun ⟨x, hx, _⟩ => nomatch hx

/-- The payload of a cursor is in ASCII. -/
theorem payload_ascii (hn : n < 2 ^ 53) :
    ∀ c ∈ Json.stringify (.object [(.ofString "offset", .number (.finite n))]), c < 0x80 := by
  have htokens : Json.stringify (.object [(.ofString "offset", .number (.finite n))]) =
      [0x7B] ++ Json.spell (.string (.ofString "offset")) ++ [0x3A] ++ Text.numeral n ++
        [0x7D] := by
    rw [← Number.toText_natCast hn]
    simp [Json.stringify, Json.tokens, Json.fieldTokens, Json.spell]
  have hkey : ∀ c ∈ [0x7B] ++ Json.spell (.string (.ofString "offset")) ++ [0x3A], c < 0x80 := by
    decide
  intro c hc
  rw [htokens] at hc
  rcases List.mem_append.mp hc with hc | hc
  · rcases List.mem_append.mp hc with hc | hc
    · exact hkey c hc
    · have hdigit := Text.isDigit_numeral hc
      simp only [Text.isDigit, Bool.and_eq_true, decide_eq_true_eq] at hdigit
      omega
  · rw [List.mem_singleton.mp hc]
    decide

theorem toNat_ofNat_ascii {bs : List ℕ} (h : ∀ b ∈ bs, b < 0x80) :
    (bs.map UInt8.ofNat).map UInt8.toNat = bs := by
  rw [List.map_map]
  refine (List.map_congr_left fun b hb => ?_).trans (List.map_id bs)
  have hlt := h b hb
  exact UInt8.toNat_ofNat_of_lt' (by show b < 256; omega)

/-- A cursor leads to the offset that it was made for. -/
theorem decodeCursor_encodeCursor (hn : n < 2 ^ 53) :
    decodeCursor (encodeCursor (.finite n)) = .finite n := by
  have hascii := payload_ascii hn
  have hparse : Json.parse (Json.stringify
      (.object [(.ofString "offset", .number (.finite n))])) =
        some (.object [(.ofString "offset", .number (.finite n))]) := by
    refine Json.parse_stringify fun t ht => ?_
    simp only [Json.tokens, Json.fieldTokens, List.cons_append, List.nil_append, List.mem_cons,
      List.not_mem_nil, or_false] at ht
    rcases ht with rfl | rfl | rfl | rfl | rfl
    · trivial
    · trivial
    · trivial
    · exact Json.readBack_natCast hn
    · trivial
  have hpayload : payloadOffset (encodeCursor (.finite n)) = some (.number (.finite n)) := by
    unfold payloadOffset encodeCursor
    dsimp only
    rw [base64url_decode_encode, utf8Encode_ascii hascii, toNat_ofNat_ascii hascii,
      utf8Decode_ascii hascii, hparse]
    rfl
  have hsign : isNegative (.finite n) = false :=
    decide_eq_false (not_lt.mpr (Nat.cast_nonneg n))
  unfold decodeCursor
  rw [hpayload]
  dsimp only
  rw [hsign, if_neg Bool.false_ne_true]

/-! ## Single pages -/

/-- The cursor of the `k`-th request. -/
def cursorAt (limit k : ℕ) : Option Text :=
  if k = 0 then none else some (encodeCursor (.finite ((k * limit : ℕ) : ℚ)))

theorem plus_natCast {m : ℕ} (h : m + n < 2 ^ 53) :
    plus (.finite m) n = .finite ((m + n : ℕ) : ℚ) := by
  show Number.ofRat ((m : ℚ) + n) = _
  rw [← Nat.cast_add, Number.ofRat_natCast h]

theorem isBelow_natCast (m n : ℕ) : isBelow (.finite m) n = decide (m < n) := by
  unfold isBelow
  exact decide_eq_decide.mpr Nat.cast_lt

/-- `slice` with natural numbers. -/
theorem slice_natCast {α : Type*} (l : List α) (m n : ℕ) :
    (l.take (sliceIndex l.length (.finite ((m + n : ℕ) : ℚ)))).drop
      (sliceIndex l.length (.finite m)) = (l.drop m).take n := by
  unfold sliceIndex
  dsimp only
  rw [Nat.floor_natCast, Nat.floor_natCast, ← List.take_eq_take_min, List.drop_take]
  rcases Nat.le_total m l.length with hle | hge
  · rw [Nat.min_eq_left hle, Nat.add_sub_cancel_left]
  · rw [Nat.min_eq_right hge, List.drop_length, List.drop_eq_nil_of_le hge, List.take_nil,
      List.take_nil]

@[simp] theorem length_buildRankedPlayers (rows : List RawRow) :
    (buildRankedPlayers rows).length = rows.length :=
  List.length_mapIdx

theorem ids_buildRankedPlayers (rows : List RawRow) :
    (buildRankedPlayers rows).map (·.id) = rows.map (·.id) := by
  refine List.ext_getElem? fun i => ?_
  rw [List.getElem?_map, List.getElem?_map, buildRankedPlayers, List.getElem?_mapIdx,
    Option.map_map]
  rfl

theorem offset_cursorAt {k : ℕ} (h : k * limit < 2 ^ 53) (hlimit : 0 < limit) :
    (match cursorAt limit k with
      | some cursor => if cursor = [] then .finite 0 else decodeCursor cursor
      | none => .finite 0) = Number.finite ((k * limit : ℕ) : ℚ) := by
  unfold cursorAt
  by_cases hk : k = 0
  · rw [if_pos hk, hk, Nat.zero_mul, Nat.cast_zero]
  · have hdecode := decodeCursor_encodeCursor h
    have hne : encodeCursor (.finite ((k * limit : ℕ) : ℚ)) ≠ [] := by
      intro hnil
      rw [hnil] at hdecode
      have hzero : (0 : ℚ) = ((k * limit : ℕ) : ℚ) := Number.finite.inj hdecode
      exact (Nat.mul_pos (Nat.pos_of_ne_zero hk) hlimit).ne (by exact_mod_cast hzero)
    rw [if_neg hk]
    dsimp only
    rw [if_neg hne, hdecode]

/-- The response to the `k`-th request. -/
theorem getLeaderboard_at {k : ℕ} (hlimit : 0 < limit) (hle : limit ≤ 100)
    (hlength : rows.length < 2 ^ 32) (hk : k * limit ≤ rows.length) :
    getLeaderboard limit (cursorAt limit k) rows =
      ⟨Pages.page limit (buildRankedPlayers rows) k,
        if (k + 1) * limit < rows.length then cursorAt limit (k + 1) else none⟩ := by
  have hnext : k * limit + limit = (k + 1) * limit := (Nat.succ_mul k limit).symm
  have hcursor : cursorAt limit (k + 1) =
      some (encodeCursor (.finite ((k * limit + limit : ℕ) : ℚ))) := by
    unfold cursorAt
    rw [if_neg (Nat.succ_ne_zero k), hnext]
  unfold getLeaderboard
  dsimp only
  rw [offset_cursorAt (by omega) hlimit, plus_natCast (by omega), slice_natCast, isBelow_natCast,
    length_buildRankedPlayers, hcursor, hnext]
  simp only [decide_eq_true_eq]
  rfl

/-! ## Walks -/

/-- The number of pages; there is one even if there are no players. -/
def pageCount (limit players : ℕ) : ℕ := (players - 1) / limit + 1

/-- There is a next page exactly if it is not the last one. -/
theorem next_iff {k players : ℕ} (hlimit : 0 < limit) :
    (k + 1) * limit < players ↔ k + 1 < pageCount limit players := by
  unfold pageCount
  rw [Nat.lt_succ_iff, Nat.le_div_iff_mul_le hlimit]
  have hpos : 0 < (k + 1) * limit := Nat.mul_pos (Nat.succ_pos k) hlimit
  omega

/-- The pages that a client receives, and that they end. -/
theorem walk_eq {players : ℕ} (hlimit : 0 < limit) (hle : limit ≤ 100)
    (hlength : players < 2 ^ 32) (hqueries : ∀ k, (queries k).length = players) (left k : ℕ)
    (hleft : k + left + 1 = pageCount limit players) :
    walk limit queries (left + 1) k (cursorAt limit k) =
      some ((List.range' k (left + 1)).map fun k =>
        Pages.page limit (buildRankedPlayers (queries k)) k) := by
  have hstart : ∀ k, k < pageCount limit players → k * limit ≤ players := by
    intro k hk
    cases k with
    | zero => omega
    | succ k => exact ((next_iff hlimit).mpr hk).le
  have hpage : ∀ k, k < pageCount limit players →
      getLeaderboard limit (cursorAt limit k) (queries k) =
      ⟨Pages.page limit (buildRankedPlayers (queries k)) k,
        if (k + 1) * limit < players then cursorAt limit (k + 1) else none⟩ := by
    intro k hk
    rw [← hqueries k] at hlength
    rw [getLeaderboard_at hlimit hle hlength (by rw [hqueries]; exact hstart k hk), hqueries]
  induction left generalizing k with
  | zero =>
    have hlast : ¬ (k + 1) * limit < players := by
      rw [next_iff hlimit]
      omega
    have hresponse := hpage k (by omega)
    rw [if_neg hlast] at hresponse
    rw [walk, hresponse]
    rfl
  | succ left ih =>
    have hnext : (k + 1) * limit < players := (next_iff hlimit).mpr (by omega)
    have hresponse := hpage k (by omega)
    rw [if_pos hnext] at hresponse
    have hcursor : cursorAt limit (k + 1) =
        some (encodeCursor (.finite (((k + 1) * limit : ℕ) : ℚ))) := if_neg (Nat.succ_ne_zero k)
    have hrest := ih (k + 1) (by omega)
    rw [walk, hresponse]
    rw [hcursor] at hrest ⊢
    dsimp only
    rw [hrest, List.range'_succ, List.map_cons]
    rfl

/-- A walk has one result. -/
theorem walk_unique {fuel fuel' k : ℕ} {cursor : Option Text}
    {pages pages' : List (List PlayerStats)}
    (h : walk limit queries fuel k cursor = some pages)
    (h' : walk limit queries fuel' k cursor = some pages') : pages = pages' := by
  induction fuel generalizing fuel' k cursor pages pages' with
  | zero => cases h
  | succ fuel ih =>
    cases fuel' with
    | zero => cases h'
    | succ fuel' =>
      rw [walk] at h h'
      cases hnext : (getLeaderboard limit cursor (queries k)).nextCursor with
      | none =>
        rw [hnext] at h h'
        exact Option.some.inj (h.symm.trans h')
      | some next =>
        rw [hnext] at h h'
        obtain ⟨rest, hrest, rfl⟩ := Option.map_eq_some_iff.mp h
        obtain ⟨rest', hrest', rfl⟩ := Option.map_eq_some_iff.mp h'
        rw [ih hrest hrest']

/-! ## Whom a walk visits -/

theorem Leaderboard.ranks (board : Leaderboard) : Ranks RawRow.key board.rows board.ranked :=
  ⟨List.perm_insertionSort _ _, List.pairwise_insertionSort _ _⟩

/-- A walk visits the players of the pages of the rankings. -/
theorem visitsAll_iff (hlimit : 0 < limit) (hle : limit ≤ 100)
    (hqueries : ∀ k, Ranks RawRow.key board.rows (queries k)) :
    VisitsAll limit queries board ↔
      (((List.range (pageCount limit board.rows.length)).flatMap fun k =>
        Pages.page limit (queries k) k).map (·.id)).Perm (board.rows.map (·.id)) := by
  have hwalk : walk limit queries (pageCount limit board.rows.length) 0 none =
      some ((List.range (pageCount limit board.rows.length)).map fun k =>
        Pages.page limit (buildRankedPlayers (queries k)) k) := by
    have heq := walk_eq hlimit hle board.length_lt (fun k => (hqueries k).perm.length_eq)
      ((board.rows.length - 1) / limit) 0 (by rw [pageCount, Nat.zero_add])
    rw [← pageCount, ← List.range_eq_range'] at heq
    exact heq
  have hids : (((List.range (pageCount limit board.rows.length)).map fun k =>
      Pages.page limit (buildRankedPlayers (queries k)) k).flatten.map (·.id)) =
        ((List.range (pageCount limit board.rows.length)).flatMap fun k =>
          Pages.page limit (queries k) k).map (·.id) := by
    rw [← List.flatMap_def, List.map_flatMap, List.map_flatMap]
    refine List.flatMap_congr fun k _ => ?_
    unfold Pages.page
    rw [List.map_take, List.map_drop, ids_buildRankedPlayers, List.map_take, List.map_drop]
  constructor
  · rintro ⟨fuel, pages, hpages, hperm⟩
    rw [walk_unique hpages hwalk, hids] at hperm
    exact hperm
  · intro hperm
    exact ⟨_, _, hwalk, by rwa [hids]⟩

/-- Pages enough for all the players. -/
theorem length_le_pages (hlimit : 0 < limit) (players : ℕ) :
    players ≤ pageCount limit players * limit := by
  by_contra hlt
  have hmore : pageCount limit players < pageCount limit players :=
    (@next_iff limit ((players - 1) / limit) players hlimit).mp (not_le.mp hlt)
  exact lt_irrefl _ hmore

/-- Separated pages visit every player exactly once, whatever the order of ties. -/
theorem visitsAll_of_separated (hlimit : 0 < limit) (hle : limit ≤ 100)
    (hseparated : Separated RawRow.key limit board.ranked)
    (hqueries : ∀ k, Ranks RawRow.key board.rows (queries k)) : VisitsAll limit queries board := by
  have hall := flatMap_page_perm hlimit hqueries board.ranks hseparated
    (pageCount limit board.rows.length)
  rw [List.take_of_length_le (by
    rw [board.ranks.perm.length_eq]
    exact length_le_pages hlimit _)] at hall
  exact (visitsAll_iff hlimit hle hqueries).mpr ((hall.trans board.ranks.perm).map _)

/-- If each query may order ties in its own way, players tied across the end of a page may
    be visited twice. -/
theorem separated_of_visitsAll (hlimit : 0 < limit) (hle : limit ≤ 100)
    (hall : ∀ queries : ℕ → List RawRow, (∀ k, Ranks RawRow.key board.rows (queries k)) →
      VisitsAll limit queries board) : Separated RawRow.key limit board.ranked := by
  intro k _ hk hlt htied
  obtain ⟨k, rfl⟩ := Nat.exists_eq_succ_of_ne_zero hk
  obtain ⟨other, hother, row, hfirst, hsecond⟩ :=
    exists_repeated hlimit board.ranks hlt htied
  -- The query after the page orders the two tied players the other way.
  let queries : ℕ → List RawRow := fun j => if j = k + 1 then other else board.ranked
  have hqueries : ∀ j, Ranks RawRow.key board.rows (queries j) := by
    intro j
    show Ranks RawRow.key board.rows (if j = k + 1 then other else board.ranked)
    split_ifs
    · exact hother
    · exact board.ranks
  have hvisits := (visitsAll_iff hlimit hle hqueries).mp (hall queries hqueries)
  have hnodup := (hvisits.nodup_iff.mpr board.nodup).of_map
  have hpages : k + 1 < pageCount limit board.rows.length := by
    rw [← next_iff hlimit, ← board.ranks.perm.length_eq]
    exact hlt
  have hdisjoint := (List.nodup_flatMap.mp hnodup).2
  rw [List.pairwise_iff_getElem] at hdisjoint
  have hpair := hdisjoint k (k + 1) (by rw [List.length_range]; omega)
    (by rw [List.length_range]; exact hpages) (Nat.lt_succ_self k)
  rw [List.getElem_range, List.getElem_range] at hpair
  refine @hpair row ?_ ?_
  · show row ∈ Pages.page limit (if k = k + 1 then other else board.ranked) k
    rw [if_neg (Nat.ne_of_lt (Nat.lt_succ_self k))]
    exact hfirst
  · show row ∈ Pages.page limit (if k + 1 = k + 1 then other else board.ranked) (k + 1)
    rw [if_pos rfl]
    exact hsecond

/-- Three players. -/
def sampleBoard : Leaderboard where
  rows := [⟨"b", "GB", 5, 1, 2⟩, ⟨"a", "GA", 7, 2, 3⟩, ⟨"c", "GC", 5, 0, 4⟩]
  nodup := by decide
  length_lt := by decide

/-- Two players with the same yield and the same number of arenas won. -/
def tiedBoard : Leaderboard where
  rows := [⟨"a", "GA", 7, 2, 3⟩, ⟨"b", "GB", 7, 2, 3⟩]
  nodup := by decide
  length_lt := by decide

end InverseArena.Backend
