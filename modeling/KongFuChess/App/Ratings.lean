import KongFuChess.Db.UserStore
import KongFuChess.Elo.EloRating
import KongFuChess.Model.Board
import Mathlib.Algebra.BigOperators.Group.Multiset.Basic

/-!
# Rating a game

When a game has ended, the application that hosts it writes the new ratings of both players to the
user store. A game between two players moves points from one to the other, so that all ratings
together grow by the rating of a newcomer with every registration. They change otherwise only where
one of the two writes fails, or where both go to one row.
-/

namespace KongFuChess.App

open Model Db Elo

variable {σ : Type*} (sqlite : Sqlite σ) (double : Doubles)

/-- The new ratings of a winner and a loser are written, whatever comes of the writes. The winner's
row is written first. -/
def writeResult (store : UserStore σ) (winnerName loserName : StdString)
    (winnerElo loserElo : ℤ) : UserStore σ :=
  let update := computeUpdate double winnerElo loserElo
  let store := (store.updateElo sqlite winnerName update.winnerNew).2
  (store.updateElo sqlite loserName update.loserNew).2

/-- A result is rated as far as both players are found in the store. -/
def rateResult (store : UserStore σ) (winnerName loserName : StdString) : UserStore σ :=
  let (winnerRecord, store) := store.find sqlite winnerName
  let (loserRecord, store) := store.find sqlite loserName
  match winnerRecord, loserRecord with
  | some winnerRecord, some loserRecord =>
    writeResult sqlite double store winnerName loserName winnerRecord.elo loserRecord.elo
  | _, _ => store

/-- What the application does with the result of a game. -/
def rateGame (store : UserStore σ) (whiteUser blackUser : StdString) (winner : Color) :
    UserStore σ :=
  let whiteWon := winner = .white
  let winnerName := if whiteWon then whiteUser else blackUser
  let loserName := if whiteWon then blackUser else whiteUser
  rateResult sqlite double store winnerName loserName

end KongFuChess.App

namespace KongFuChess.Db

open Model Elo

/-! ## The sum of all ratings -/

def total (table : Multiset UserRecord) : ℤ := (table.map (·.elo)).sum

theorem total_cons (record : UserRecord) (table : Multiset UserRecord) :
    total (record ::ₘ table) = record.elo + total table := by
  rw [total, Multiset.map_cons, Multiset.sum_cons, total]

/-- Among rows with different names one row changes. -/
theorem total_withElo {table : Multiset UserRecord} (hkey : (table.map (·.username)).Nodup)
    {record : UserRecord} (hmem : record ∈ table) (newElo : ℤ) :
    total (table.map (withElo record.username newElo)) + record.elo = total table + newElo := by
  obtain ⟨others, rfl⟩ := Multiset.exists_cons_of_mem hmem
  rw [Multiset.map_cons, Multiset.nodup_cons] at hkey
  have hothers : others.map (withElo record.username newElo) = others := by
    rw [Multiset.map_congr (g := id) rfl, Multiset.map_id]
    intro other hother
    rw [withElo, if_neg, id]
    intro heq
    exact hkey.1 (Multiset.mem_map.2 ⟨other, hother, heq⟩)
  rw [Multiset.map_cons, hothers, total_cons, total_cons, withElo, if_pos rfl]
  simp only
  omega

end KongFuChess.Db

namespace KongFuChess.App

open Model Db Elo

/-! ## Points are moved, not made -/

section Games

variable {σ : Type*} (sqlite : Sqlite σ) (double : Doubles)
  (hashPassword : StdString → StdString → CText)

inductive RatingOp
  | register (username password : StdString) (salt : CText)
  | game (whiteUser blackUser : StdString) (winner : Color)

def ratingStep (store : UserStore σ) : RatingOp → UserStore σ
  | .register username password salt =>
    (store.authenticateOrRegister sqlite hashPassword username password salt).2
  | .game whiteUser blackUser winner => rateGame sqlite double store whiteUser blackUser winner

/-- The points that a newcomer brings. -/
def brought (store : UserStore σ) : RatingOp → ℤ
  | .register username password salt =>
    if (store.find sqlite username).1 = none ∧
        (store.authenticateOrRegister sqlite hashPassword username password salt).1 = true then
      kDefaultElo
    else 0
  | .game .. => 0

/-- The points that two writes of a result take from all ratings together. The winner's gain is
missing if his row has not been written, or has been overwritten; the loser keeps it if his row has
not been written. -/
def leakedByWrites (store : UserStore σ) (winnerName loserName : StdString)
    (winnerElo loserElo : ℤ) : ℤ :=
  let update := computeUpdate double winnerElo loserElo
  let (winnerWritten, store) := store.updateElo sqlite winnerName update.winnerNew
  let (loserWritten, _) := store.updateElo sqlite loserName update.loserNew
  let change := gain double winnerElo loserElo
  (if loserWritten then change else 0) -
    if winnerWritten ∧ ¬ (loserWritten ∧ cStr winnerName = cStr loserName) then change else 0

def leakedByResult (store : UserStore σ) (winnerName loserName : StdString) : ℤ :=
  let (winnerRecord, store) := store.find sqlite winnerName
  let (loserRecord, store) := store.find sqlite loserName
  match winnerRecord, loserRecord with
  | some winnerRecord, some loserRecord =>
    leakedByWrites sqlite double store winnerName loserName winnerRecord.elo loserRecord.elo
  | _, _ => 0

/-- The points that a game takes from all ratings together. -/
def leaked (store : UserStore σ) : RatingOp → ℤ
  | .register .. => 0
  | .game whiteUser blackUser winner =>
    let whiteWon := winner = .white
    leakedByResult sqlite double store (if whiteWon then whiteUser else blackUser)
      (if whiteWon then blackUser else whiteUser)

variable {sqlite double} {table : σ → Multiset UserRecord} (hsqlite : sqlite.Documented table)
include hsqlite

/-- A rating is written into a row that is there, or not at all. -/
theorem total_updateElo {store : UserStore σ} {username : StdString} {row : UserRecord}
    (hrow : row ∈ table store.db) (hname : row.username = cStr username) (newElo : ℤ) :
    total (table (store.updateElo sqlite username newElo).2.db) =
      total (table store.db) +
        if (store.updateElo sqlite username newElo).1 then newElo - row.elo else 0 := by
  rw [store.table_updateElo username hsqlite]
  split
  · have htotal := total_withElo (hsqlite.primaryKey store.db) hrow newElo
    rw [hname] at htotal
    omega
  · rw [add_zero]

/-- The ledger of two writes. -/
theorem total_writeResult {store : UserStore σ} {winnerName loserName : StdString}
    {winner loser : UserRecord} (hwinner : winner ∈ table store.db)
    (hwinnerName : winner.username = cStr winnerName) (hloser : loser ∈ table store.db)
    (hloserName : loser.username = cStr loserName) :
    total (table (writeResult sqlite double store winnerName loserName winner.elo loser.elo).db) +
        leakedByWrites sqlite double store winnerName loserName winner.elo loser.elo =
      total (table store.db) := by
  unfold writeResult leakedByWrites
  simp only [computeUpdate_eq]
  have hfirst := total_updateElo hsqlite hwinner hwinnerName
    (winner.elo + gain double winner.elo loser.elo)
  have htable := store.table_updateElo winnerName hsqlite
    (winner.elo + gain double winner.elo loser.elo)
  generalize store.updateElo sqlite winnerName (winner.elo + gain double winner.elo loser.elo) =
    first at hfirst htable ⊢
  obtain ⟨winnerWritten, later⟩ := first
  dsimp only at hfirst htable ⊢
  -- The row of the loser as the second write finds it.
  obtain ⟨row, hrow, hrowName, hrowElo⟩ : ∃ row ∈ table later.db,
      row.username = cStr loserName ∧ row.elo =
        if winnerWritten = true ∧ cStr winnerName = cStr loserName then
          loser.elo + gain double winner.elo loser.elo
        else loser.elo := by
    rw [htable]
    cases winnerWritten with
    | false => exact ⟨loser, hloser, hloserName, by simp⟩
    | true =>
      refine ⟨_, Multiset.mem_map_of_mem _ hloser, ?_, ?_⟩
      · rw [UserStore.username_withElo, hloserName]
      · by_cases hsame : cStr winnerName = cStr loserName
        · have hrecord : winner = loser := UserStore.row_unique hsqlite hwinner hloser (by
            rw [hwinnerName, hsame, hloserName])
          rw [withElo, if_pos (hloserName.trans hsame.symm), if_pos ⟨rfl, hsame⟩, hrecord]
        · rw [withElo, if_neg fun heq ↦ hsame (heq.symm.trans hloserName),
            if_neg fun h ↦ hsame h.2]
  have hsecond := total_updateElo hsqlite hrow hrowName
    (loser.elo - gain double winner.elo loser.elo)
  generalize later.updateElo sqlite loserName (loser.elo - gain double winner.elo loser.elo) =
    second at hsecond ⊢
  obtain ⟨loserWritten, last⟩ := second
  dsimp only at hsecond ⊢
  rw [hsecond, hfirst, hrowElo]
  by_cases hsame : cStr winnerName = cStr loserName
  · cases winnerWritten <;> cases loserWritten <;> simp [hsame]
    omega
  · cases winnerWritten <;> cases loserWritten <;> simp [hsame]

/-- The ledger of a result. -/
theorem total_rateResult (store : UserStore σ) (winnerName loserName : StdString) :
    total (table (rateResult sqlite double store winnerName loserName).db) +
        leakedByResult sqlite double store winnerName loserName = total (table store.db) := by
  unfold rateResult leakedByResult
  have hwinner := store.table_find winnerName hsqlite
  have hwinnerRow := fun record (hfound : (store.find sqlite winnerName).1 = some record) ↦
    UserStore.mem_of_find hsqlite hfound
  generalize store.find sqlite winnerName = first at hwinner hwinnerRow ⊢
  obtain ⟨winnerRecord, later⟩ := first
  have hloser := later.table_find loserName hsqlite
  have hloserRow := fun record (hfound : (later.find sqlite loserName).1 = some record) ↦
    UserStore.mem_of_find hsqlite hfound
  dsimp only at hwinner hwinnerRow ⊢
  generalize later.find sqlite loserName = second at hloser hloserRow ⊢
  obtain ⟨loserRecord, last⟩ := second
  dsimp only at hloser hloserRow ⊢
  rw [← hwinner, ← hloser]
  split
  · rename_i winner loser
    obtain ⟨-, winnerRow, hmem, hname, rfl⟩ := hwinnerRow winner rfl
    obtain ⟨-, loserRow, hmem', hname', rfl⟩ := hloserRow loser rfl
    rw [← hwinner, ← hloser] at hmem
    rw [← hloser] at hmem'
    change total (table (writeResult sqlite double last winnerName loserName winnerRow.elo
      loserRow.elo).db) + leakedByWrites sqlite double last winnerName loserName winnerRow.elo
        loserRow.elo = total (table last.db)
    exact total_writeResult hsqlite hmem hname hmem' hname'
  · rw [add_zero]

theorem total_ratingStep (store : UserStore σ) (op : RatingOp) :
    total (table (ratingStep sqlite double hashPassword store op).db) +
        leaked sqlite double store op =
      total (table store.db) + brought sqlite hashPassword store op := by
  cases op with
  | register username password salt =>
    rw [leaked, add_zero, brought, ratingStep,
      store.table_authenticateOrRegister hashPassword username password salt hsqlite]
    split
    · rw [total_cons, add_comm]
      rfl
    · rw [add_zero]
  | game whiteUser blackUser winner =>
    rw [leaked, brought, add_zero, ratingStep, rateGame]
    exact total_rateResult hsqlite store _ _

/-- The ledger of the ratings: all ratings together grow by the rating of a newcomer for each user
who is inserted. A finished game only moves points, except that the sum changes where one of its two
writes fails or winner and loser have one name. -/
theorem total_run (store : UserStore σ) (ops : List RatingOp) :
    total (table (Transition.run (ratingStep sqlite double hashPassword) store ops).db) +
        Transition.accumulate (ratingStep sqlite double hashPassword) (leaked sqlite double) store
          ops =
      total (table store.db) +
        Transition.accumulate (ratingStep sqlite double hashPassword) (brought sqlite hashPassword)
          store ops :=
  Transition.accumulate_balance _ (I := fun _ ↦ True) (fun store : UserStore σ ↦
      total (table store.db)) (brought sqlite hashPassword) (leaked sqlite double)
    (fun _ _ _ ↦ trivial) (fun store op _ ↦ total_ratingStep hashPassword hsqlite store op) store
    trivial ops

end Games

/-- Ann's win over Bob, whose gain is not written, and a newcomer. -/
def annUnwritten : List RatingOp :=
  [.game "ann".toList "bob".toList .white,
    .register "carol".toList "secret".toList UserStore.sampleSalt]

theorem total_run_annUnwritten :
    total (Transition.run (ratingStep MemoryTable.sqlite evenDoubles UserStore.sampleHash)
        UserStore.annAndBob annUnwritten).db.table +
      Transition.accumulate (ratingStep MemoryTable.sqlite evenDoubles UserStore.sampleHash)
        (leaked MemoryTable.sqlite evenDoubles) UserStore.annAndBob annUnwritten =
    total UserStore.annAndBob.db.table +
      Transition.accumulate (ratingStep MemoryTable.sqlite evenDoubles UserStore.sampleHash)
        (brought MemoryTable.sqlite UserStore.sampleHash) UserStore.annAndBob annUnwritten :=
  total_run UserStore.sampleHash MemoryTable.documented_sqlite UserStore.annAndBob annUnwritten

end KongFuChess.App
