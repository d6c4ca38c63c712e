import KongFuChess.Io.Algebraic
import KongFuChess.Library.Transition
import Mathlib.Data.List.TakeWhile
import Mathlib.Data.Multiset.Count
import Mathlib.Data.Multiset.MapFold

/-!
# The user store

The users are the rows of a table whose primary key is the user name. Texts are handed over as C
strings, so that a name counts up to its first NUL character. Rows are only ever inserted, and only
their ratings change afterwards: a name belongs to the password with which it was first registered.

The table is kept by SQLite, which is a parameter: its state holds the rows and whatever else
decides on the fate of a statement, such as the locks of other processes. Any statement can fail.
`Documented` says what is known of the statements. The random salt is an input.
-/

namespace KongFuChess.Db

/-- The text that a C string holds. -/
def cStr (text : StdString) : StdString := text.takeWhile (· ≠ '\x00')

theorem cStr_of_notMem {text : StdString} (h : '\x00' ∉ text) : cStr text = text := by
  apply List.takeWhile_eq_self_iff.2
  intro char hmem
  rw [decide_eq_true_eq]
  rintro rfl
  exact h hmem

/-- A text in hexadecimal notation is a C string. -/
abbrev CText := { text : StdString // '\x00' ∉ text }

def kDefaultElo : ℤ := 1200

structure UserRecord where
  username : StdString
  passwordHash : StdString
  salt : StdString
  elo : ℤ := 1200
deriving DecidableEq, Repr

/-! ## SQLite -/

/-- What becomes of a query for one row. `error` stands for every other result of
`sqlite3_prepare_v2` and `sqlite3_step` than a row or the end, as when the database is locked. -/
inductive QueryResult
  | row (record : UserRecord)
  | done
  | error
deriving DecidableEq, Repr

/-- The statements of the store, with the values that are bound to them, on a database in the state
`σ`. -/
structure Sqlite (σ : Type*) where
  select : StdString → σ → QueryResult × σ
  /-- Whether `INSERT` ends with `SQLITE_DONE`. -/
  insert : UserRecord → σ → Bool × σ
  /-- If `UPDATE` ends with `SQLITE_DONE`, the number of changed rows. -/
  update : StdString → ℤ → σ → Option ℕ × σ

/-- The change that `UPDATE` makes to a row. -/
def withElo (username : StdString) (newElo : ℤ) (record : UserRecord) : UserRecord :=
  if record.username = username then { record with elo := newElo } else record

/-- What SQLite documents of the statements on the table `users`: the names are different, a query
finds a row that it asks for and leaves the table alone, a row is inserted or it is not, all rows
under a name are updated or none is. -/
structure Sqlite.Documented {σ : Type*} (sqlite : Sqlite σ) (table : σ → Multiset UserRecord) :
    Prop where
  primaryKey : ∀ db, ((table db).map (·.username)).Nodup
  row : ∀ username db record, (sqlite.select username db).1 = .row record →
    record ∈ table db ∧ record.username = username
  done : ∀ username db, (sqlite.select username db).1 = .done →
    ∀ record ∈ table db, record.username ≠ username
  selected : ∀ username db, table (sqlite.select username db).2 = table db
  inserted : ∀ record db, (sqlite.insert record db).1 = true →
    table (sqlite.insert record db).2 = record ::ₘ table db
  notInserted : ∀ record db, (sqlite.insert record db).1 = false →
    table (sqlite.insert record db).2 = table db
  updated : ∀ username elo db changes, (sqlite.update username elo db).1 = some changes →
    table (sqlite.update username elo db).2 = (table db).map (withElo username elo) ∧
      changes = (table db).countP (·.username = username)
  notUpdated : ∀ username elo db, (sqlite.update username elo db).1 = none →
    table (sqlite.update username elo db).2 = table db

/-! ## The store -/

/-- The database, unless the file could not be opened. -/
structure UserStore (σ : Type*) where
  db : σ
  isOpen : Bool := true
deriving DecidableEq, Repr

namespace UserStore

variable {σ : Type*} (sqlite : Sqlite σ) (store : UserStore σ)
  (hashPassword : StdString → StdString → CText)

/-- The columns of a row are read as C strings. -/
def readRecord (record : UserRecord) : UserRecord :=
  { username := cStr record.username
    passwordHash := cStr record.passwordHash
    salt := cStr record.salt
    elo := record.elo }

def find (username : StdString) : Option UserRecord × UserStore σ :=
  if !store.isOpen then (none, store)
  else
    let (result, db) := sqlite.select (cStr username) store.db
    let store := { store with db := db }
    match result with
    | .row record => (some (readRecord record), store)
    | .done | .error => (none, store)

def newRecord (username password : StdString) (salt : CText) : UserRecord :=
  { username := cStr username
    passwordHash := cStr (hashPassword password salt)
    salt := cStr salt
    elo := kDefaultElo }

def create (username password : StdString) (salt : CText) : Bool × UserStore σ :=
  if !store.isOpen then (false, store)
  else
    match store.find sqlite username with
    | (some _, store) => (false, store)
    | (none, store) =>
      let (success, db) := sqlite.insert (newRecord hashPassword username password salt) store.db
      (success, { store with db := db })

def verifyPassword (username password : StdString) : Bool × UserStore σ :=
  match store.find sqlite username with
  | (none, store) => (false, store)
  | (some record, store) =>
    ((hashPassword password record.salt).val = record.passwordHash, store)

def updateElo (username : StdString) (newElo : ℤ) : Bool × UserStore σ :=
  if !store.isOpen then (false, store)
  else
    let (result, db) := sqlite.update (cStr username) newElo store.db
    (result.any (0 < ·), { store with db := db })

/-- The application lets a player in who knows the password of the name, or who is the first to come
under it. -/
def authenticateOrRegister (username password : StdString) (salt : CText) : Bool × UserStore σ :=
  match store.find sqlite username with
  | (some _, store) => store.verifyPassword sqlite hashPassword username password
  | (none, store) => store.create sqlite hashPassword username password salt

inductive Op
  | find (username : StdString)
  | create (username password : StdString) (salt : CText)
  | authenticateOrRegister (username password : StdString) (salt : CText)
  | updateElo (username : StdString) (newElo : ℤ)

def step (store : UserStore σ) : Op → UserStore σ
  | .find username => (store.find sqlite username).2
  | .create username password salt => (store.create sqlite hashPassword username password salt).2
  | .authenticateOrRegister username password salt =>
    (store.authenticateOrRegister sqlite hashPassword username password salt).2
  | .updateElo username newElo => (store.updateElo sqlite username newElo).2

abbrev run (store : UserStore σ) (ops : List Op) : UserStore σ :=
  Transition.run (step sqlite hashPassword) store ops

/-! ## What the operations do to the table -/

section Table

@[simp]
theorem isOpen_find (username : StdString) :
    (store.find sqlite username).2.isOpen = store.isOpen := by
  unfold find
  split
  · rfl
  · dsimp only
    split <;> rfl

theorem username_withElo (username : StdString) (newElo : ℤ) (record : UserRecord) :
    (withElo username newElo record).username = record.username := by
  unfold withElo
  split <;> rfl

variable {sqlite} {table : σ → Multiset UserRecord} (username password : StdString) (salt : CText)
  (hsqlite : sqlite.Documented table)
include hsqlite

theorem table_find : table (store.find sqlite username).2.db = table store.db := by
  unfold find
  split
  · rfl
  · have hselected := hsqlite.selected (cStr username) store.db
    dsimp only
    split <;> exact hselected

variable {store username} in
/-- A record that is found has been read from the row of its name. -/
theorem mem_of_find {record : UserRecord} (h : (store.find sqlite username).1 = some record) :
    store.isOpen = true ∧
      ∃ row ∈ table store.db, row.username = cStr username ∧ readRecord row = record := by
  unfold find at h
  split at h
  · exact absurd h (Option.some_ne_none _).symm
  · rename_i hopen
    refine ⟨by simpa using hopen, ?_⟩
    dsimp only at h
    cases hresult : (sqlite.select (cStr username) store.db).1 with
    | row row =>
      rw [hresult] at h
      obtain ⟨hmem, hname⟩ := hsqlite.row _ _ _ hresult
      exact ⟨row, hmem, hname, Option.some.inj h⟩
    | done | error =>
      rw [hresult] at h
      exact absurd h (Option.some_ne_none _).symm

variable {store} in
/-- There is one row under a name. -/
theorem row_unique {row other : UserRecord} (hrow : row ∈ table store.db)
    (hother : other ∈ table store.db) (hname : row.username = other.username) : row = other :=
  Multiset.inj_on_of_nodup_map (hsqlite.primaryKey store.db) row hrow other hother hname

/-- A registration inserts the row of the new user, or it leaves the table alone. -/
theorem table_create :
    table (store.create sqlite hashPassword username password salt).2.db =
      if (store.create sqlite hashPassword username password salt).1 then
        newRecord hashPassword username password salt ::ₘ table store.db
      else table store.db := by
  unfold create
  split
  · rfl
  have hfind := store.table_find username hsqlite
  split
  · rename_i later heq
    rw [heq] at hfind
    exact hfind
  · rename_i later heq
    rw [heq] at hfind
    dsimp only at hfind ⊢
    rw [← hfind]
    split
    · rename_i hsuccess
      exact hsqlite.inserted _ _ hsuccess
    · rename_i hfailure
      exact hsqlite.notInserted _ _ (by simpa using hfailure)

theorem table_verifyPassword :
    table (store.verifyPassword sqlite hashPassword username password).2.db = table store.db := by
  have hfind := store.table_find username hsqlite
  unfold verifyPassword
  split
  · rename_i later heq
    rw [heq] at hfind
    exact hfind
  · rename_i record later heq
    rw [heq] at hfind
    exact hfind

/-- A login inserts a row only under a name that has not been found. -/
theorem table_authenticateOrRegister :
    table (store.authenticateOrRegister sqlite hashPassword username password salt).2.db =
      if (store.find sqlite username).1 = none ∧
          (store.authenticateOrRegister sqlite hashPassword username password salt).1 = true then
        newRecord hashPassword username password salt ::ₘ table store.db
      else table store.db := by
  have hfind := store.table_find username hsqlite
  unfold authenticateOrRegister
  split
  · rename_i record later heq
    rw [heq] at hfind
    rw [heq, if_neg fun h ↦ Option.some_ne_none _ h.1]
    exact (later.table_verifyPassword hashPassword username password hsqlite).trans hfind
  · rename_i later heq
    rw [heq] at hfind
    dsimp only at hfind
    rw [heq, table_create later hashPassword username password salt hsqlite, hfind]
    simp only [true_and]

/-- A rating is written into the row of its name, or nothing changes. -/
theorem table_updateElo (newElo : ℤ) :
    table (store.updateElo sqlite username newElo).2.db =
      if (store.updateElo sqlite username newElo).1 then
        (table store.db).map (withElo (cStr username) newElo)
      else table store.db := by
  unfold updateElo
  split
  · rfl
  have hupdated := hsqlite.updated (cStr username) newElo store.db
  have hnotUpdated := hsqlite.notUpdated (cStr username) newElo store.db
  generalize sqlite.update (cStr username) newElo store.db = result at hupdated hnotUpdated ⊢
  obtain ⟨result, later⟩ := result
  dsimp only at hupdated hnotUpdated ⊢
  cases result with
  | none => rw [hnotUpdated rfl, if_neg (by simp)]
  | some changes =>
    obtain ⟨htable, hchanges⟩ := hupdated changes rfl
    rw [htable]
    split
    · rfl
    · -- No row has been changed, because there is none under the name.
      rename_i hnone
      have hzero : (table store.db).countP (·.username = cStr username) = 0 := by
        rw [← hchanges]
        simpa using hnone
      rw [Multiset.countP_eq_zero] at hzero
      rw [Multiset.map_congr (g := id) rfl, Multiset.map_id]
      intro row hrow
      rw [withElo, if_neg (hzero row hrow), id]

end Table

/-! ## Names and passwords -/

section Registered

/-- Under the name there is a row with the hash and the salt. -/
def Registered (table : σ → Multiset UserRecord) (store : UserStore σ)
    (username passwordHash salt : StdString) : Prop :=
  ∃ row ∈ table store.db, row.username = cStr username ∧ row.passwordHash = passwordHash ∧
    row.salt = salt

variable {sqlite store} {table : σ → Multiset UserRecord}
  {username passwordHash salt : StdString} (hsqlite : sqlite.Documented table)
include hsqlite

/-- No operation changes the password of a name. -/
theorem Registered.step (h : store.Registered table username passwordHash salt) (op : Op) :
    (store.step sqlite hashPassword op).Registered table username passwordHash salt := by
  obtain ⟨row, hmem, hname, hhash, hsalt⟩ := h
  cases op with
  | find other =>
    refine ⟨row, ?_, hname, hhash, hsalt⟩
    rw [UserStore.step, table_find _ _ hsqlite]
    exact hmem
  | create other password newSalt =>
    refine ⟨row, ?_, hname, hhash, hsalt⟩
    rw [UserStore.step, table_create _ _ _ _ _ hsqlite]
    split
    · exact Multiset.mem_cons_of_mem hmem
    · exact hmem
  | authenticateOrRegister other password newSalt =>
    refine ⟨row, ?_, hname, hhash, hsalt⟩
    rw [UserStore.step, table_authenticateOrRegister _ _ _ _ _ hsqlite]
    split
    · exact Multiset.mem_cons_of_mem hmem
    · exact hmem
  | updateElo other newElo =>
    rw [Registered, UserStore.step, table_updateElo _ _ hsqlite]
    split
    · refine ⟨withElo (cStr other) newElo row, Multiset.mem_map_of_mem _ hmem, ?_, ?_, ?_⟩
      · rw [username_withElo, hname]
      · rw [withElo]
        split <;> exact hhash
      · rw [withElo]
        split <;> exact hsalt
    · exact ⟨row, hmem, hname, hhash, hsalt⟩

/-- The query for the row of the name does not fail. -/
def Answers (sqlite : Sqlite σ) (store : UserStore σ) (username : StdString) : Prop :=
  (sqlite.select (cStr username) store.db).1 ≠ .error

/-- A registered name is found, unless the query fails. -/
theorem Registered.find (h : store.Registered table username passwordHash salt)
    (hopen : store.isOpen = true) (hanswers : store.Answers sqlite username) :
    (store.find sqlite username).1.isSome = true := by
  obtain ⟨row, hmem, hname, -⟩ := h
  unfold UserStore.find
  rw [if_neg (by simp [hopen])]
  dsimp only
  cases hresult : (sqlite.select (cStr username) store.db).1 with
  | row record => rfl
  | done => exact absurd hname (hsqlite.done _ _ hresult row hmem)
  | error => exact absurd hresult hanswers

/-- A password is accepted only if it is that of the name, and it is accepted if the name is
found. -/
theorem Registered.verifyPassword {password : StdString} {newSalt : CText}
    (h : store.Registered table username (cStr (hashPassword password newSalt)) (cStr newSalt))
    (attempt : StdString) :
    (store.verifyPassword sqlite hashPassword username attempt).1 = true ↔
      (store.find sqlite username).1.isSome = true ∧
        hashPassword attempt newSalt = hashPassword password newSalt := by
  obtain ⟨row, hmem, hname, hhash, hsalt⟩ := h
  unfold UserStore.verifyPassword
  cases hresult : store.find sqlite username with
  | mk result later =>
    cases result with
    | none => simp
    | some record =>
      obtain ⟨-, other, hother, hsame, rfl⟩ := mem_of_find hsqlite (congrArg Prod.fst hresult)
      obtain rfl := row_unique hsqlite hmem hother (hname.trans hsame.symm)
      simp only [readRecord, hhash, hsalt, cStr_of_notMem newSalt.property,
        cStr_of_notMem (hashPassword password newSalt).property, decide_eq_true_eq, Subtype.ext_iff,
        Option.isSome_some, true_and]

/-- A registered name cannot be registered again. -/
theorem Registered.create (h : store.Registered table username passwordHash salt)
    (password : StdString) (newSalt : CText) :
    (store.create sqlite hashPassword username password newSalt).1 = false := by
  obtain ⟨row, hmem, hname, -⟩ := h
  rw [← Bool.not_eq_true]
  intro hsuccess
  have htable := store.table_create hashPassword username password newSalt hsqlite
  rw [if_pos hsuccess] at htable
  have hkey := hsqlite.primaryKey
    (store.create sqlite hashPassword username password newSalt).2.db
  rw [htable, Multiset.map_cons, Multiset.nodup_cons] at hkey
  exact hkey.1 (Multiset.mem_map.2 ⟨row, hmem, hname⟩)

/-- Under a registered name the password decides, as far as the queries do not fail, and the table
stays as it is. -/
theorem Registered.authenticate {password : StdString} {newSalt : CText}
    (h : store.Registered table username (cStr (hashPassword password newSalt)) (cStr newSalt))
    (attempt : StdString) (salt' : CText) :
    ((store.authenticateOrRegister sqlite hashPassword username attempt salt').1 = true ↔
      (store.find sqlite username).1.isSome = true ∧
        ((store.find sqlite username).2.find sqlite username).1.isSome = true ∧
          hashPassword attempt newSalt = hashPassword password newSalt) ∧
    table (store.authenticateOrRegister sqlite hashPassword username attempt salt').2.db =
      table store.db := by
  have hfind := h.step hashPassword hsqlite (.find username)
  rw [UserStore.step] at hfind
  constructor
  · unfold authenticateOrRegister
    split
    · rename_i record later heq
      rw [heq] at hfind ⊢
      rw [hfind.verifyPassword hashPassword hsqlite]
      simp
    · rename_i later heq
      rw [heq] at hfind ⊢
      rw [hfind.create hashPassword hsqlite]
      simp
  · rw [table_authenticateOrRegister _ _ _ _ _ hsqlite, if_neg]
    rintro ⟨hmissed, hsuccess⟩
    unfold authenticateOrRegister at hsuccess
    split at hsuccess
    · rename_i record later heq
      rw [heq] at hmissed
      exact Option.some_ne_none _ hmissed
    · rename_i later heq
      rw [heq] at hfind
      rw [hfind.create hashPassword hsqlite] at hsuccess
      exact Bool.false_ne_true hsuccess

end Registered

theorem isOpen_create (username password : StdString) (salt : CText) :
    (store.create sqlite hashPassword username password salt).2.isOpen = store.isOpen := by
  have hfound := store.isOpen_find sqlite username
  unfold create
  split
  · rfl
  · split
    · rename_i heq
      rwa [heq] at hfound
    · rename_i heq
      rwa [heq] at hfound

theorem isOpen_verifyPassword (username password : StdString) :
    (store.verifyPassword sqlite hashPassword username password).2.isOpen = store.isOpen := by
  have hfound := store.isOpen_find sqlite username
  unfold verifyPassword
  split
  · rename_i heq
    rwa [heq] at hfound
  · rename_i heq
    rwa [heq] at hfound

theorem isOpen_step (op : Op) : (store.step sqlite hashPassword op).isOpen = store.isOpen := by
  cases op with
  | find username => exact isOpen_find ..
  | create username password salt => exact isOpen_create ..
  | authenticateOrRegister username password salt =>
    have hfound := store.isOpen_find sqlite username
    rw [step, authenticateOrRegister]
    split
    · rename_i heq
      rw [heq] at hfound
      exact (isOpen_verifyPassword ..).trans hfound
    · rename_i heq
      rw [heq] at hfound
      exact (isOpen_create ..).trans hfound
  | updateElo username newElo =>
    rw [step, updateElo]
    split <;> rfl

section

variable {sqlite store hashPassword} {table : σ → Multiset UserRecord}

/-- A login that registers a name inserts its row. -/
theorem registered_of_authenticate (hsqlite : sqlite.Documented table) {username : StdString}
    (hnew : ∀ row ∈ table store.db, row.username ≠ cStr username) {password : StdString}
    {salt : CText}
    (hsuccess : (store.authenticateOrRegister sqlite hashPassword username password salt).1 =
      true) :
    (store.authenticateOrRegister sqlite hashPassword username password salt).2.Registered table
      username (cStr (hashPassword password salt)) (cStr salt) := by
  have hmissed : (store.find sqlite username).1 = none := by
    cases hresult : (store.find sqlite username).1 with
    | none => rfl
    | some record =>
      obtain ⟨-, row, hmem, hname, -⟩ := mem_of_find hsqlite hresult
      exact absurd hname (hnew row hmem)
  refine ⟨newRecord hashPassword username password salt, ?_, rfl, rfl, rfl⟩
  rw [table_authenticateOrRegister _ _ _ _ _ hsqlite, if_pos ⟨hmissed, hsuccess⟩]
  exact Multiset.mem_cons_self _ _

end

/-- A name belongs to the password that it was first registered with, whichever statements fail:
from then on, nobody is let in under the name with another password, up to equal hashes, whoever
comes with this one is let in if both queries are answered, and no login under the name changes the
table. Nothing that is done to the store in between makes a difference. -/
theorem authenticate_run {table : σ → Multiset UserRecord} (hsqlite : sqlite.Documented table)
    {username spelling : StdString} (hopen : store.isOpen = true)
    (hnew : ∀ row ∈ table store.db, row.username ≠ cStr username)
    (hsame : cStr spelling = cStr username) (password attempt : StdString) (salt salt' : CText)
    (hsuccess : (store.authenticateOrRegister sqlite hashPassword username password salt).1 = true)
    (ops : List Op) :
    let registered := (store.authenticateOrRegister sqlite hashPassword username password salt).2
    let later := registered.run sqlite hashPassword ops
    let login := later.authenticateOrRegister sqlite hashPassword spelling attempt salt'
    (login.1 = true → hashPassword attempt salt = hashPassword password salt) ∧
    (later.Answers sqlite spelling → (later.find sqlite spelling).2.Answers sqlite spelling →
      login.1 = decide (hashPassword attempt salt = hashPassword password salt)) ∧
    table login.2.db = table later.db := by
  intro registered later login
  have hregistered : registered.isOpen = true :=
    (store.isOpen_step sqlite hashPassword
      (.authenticateOrRegister username password salt)).trans hopen
  obtain ⟨hlater, hspelling⟩ := Transition.run_invariant (step sqlite hashPassword)
    (I := fun later : UserStore σ ↦ later.isOpen = true ∧
      later.Registered table spelling (cStr (hashPassword password salt)) (cStr salt))
    (fun later op h ↦ ⟨(later.isOpen_step sqlite hashPassword op).trans h.1,
      h.2.step hashPassword hsqlite op⟩)
    ⟨hregistered, by
      rw [Registered, hsame]
      exact registered_of_authenticate hsqlite hnew hsuccess⟩ ops
  obtain ⟨hdecides, htable⟩ := hspelling.authenticate hashPassword hsqlite attempt salt'
  refine ⟨fun h ↦ (hdecides.1 h).2.2, fun hfirst hsecond ↦ ?_, htable⟩
  have hfound := hspelling.find hsqlite hlater hfirst
  have hfound' := (hspelling.step hashPassword hsqlite (.find spelling)).find hsqlite
    ((later.isOpen_find sqlite spelling).trans hlater) hsecond
  rw [Bool.eq_iff_iff, hdecides, decide_eq_true_iff]
  exact ⟨fun h ↦ h.2.2, fun h ↦ ⟨hfound, hfound', h⟩⟩

end UserStore

/-! ## A database in memory -/

/-- The rows, and which of the next statements fail. -/
structure MemoryTable where
  rows : List UserRecord := []
  failures : List Bool := []
  primaryKey : (rows.map (·.username)).Nodup

namespace MemoryTable

def table (db : MemoryTable) : Multiset UserRecord := db.rows

/-- Whether the next statement fails, and the database after it. -/
def next (db : MemoryTable) : Bool × MemoryTable :=
  (db.failures.headD false, { db with failures := db.failures.tail })

def select (username : StdString) (db : MemoryTable) : QueryResult × MemoryTable :=
  if db.next.1 then (.error, db.next.2)
  else
    match db.rows.find? fun record ↦ record.username = username with
    | some record => (.row record, db.next.2)
    | none => (.done, db.next.2)

def insert (record : UserRecord) (db : MemoryTable) : Bool × MemoryTable :=
  if h : db.next.1 = true ∨ record.username ∈ db.rows.map (·.username) then (false, db.next.2)
  else
    (true,
      { db.next.2 with
        rows := record :: db.rows
        primaryKey := List.nodup_cons.2 ⟨(not_or.1 h).2, db.primaryKey⟩ })

def update (username : StdString) (elo : ℤ) (db : MemoryTable) : Option ℕ × MemoryTable :=
  if db.next.1 then (none, db.next.2)
  else
    (some (db.rows.countP (·.username = username)),
      { db.next.2 with
        rows := db.rows.map (withElo username elo)
        primaryKey := by
          have hnames : (db.rows.map (withElo username elo)).map (·.username) =
              db.rows.map (·.username) := by
            rw [List.map_map]
            exact List.map_congr_left fun record _ ↦
              UserStore.username_withElo username elo record
          rw [hnames]
          exact db.primaryKey })

def sqlite : Sqlite MemoryTable where
  select := select
  insert := insert
  update := update

theorem documented_sqlite : sqlite.Documented table where
  primaryKey := fun db ↦ db.primaryKey
  row := by
    intro username db record h
    change (select username db).1 = _ at h
    unfold select at h
    split at h
    · exact absurd h QueryResult.noConfusion
    · split at h
      · rename_i found heq
        obtain rfl := QueryResult.row.inj h
        exact ⟨List.mem_of_find?_eq_some heq, by simpa using List.find?_some heq⟩
      · exact absurd h QueryResult.noConfusion
  done := by
    intro username db h record hmem
    change (select username db).1 = _ at h
    unfold select at h
    split at h
    · exact absurd h QueryResult.noConfusion
    · split at h
      · exact absurd h QueryResult.noConfusion
      · rename_i heq
        simpa using List.find?_eq_none.1 heq record hmem
  selected := by
    intro username db
    change table (select username db).2 = _
    unfold select
    split
    · rfl
    · split <;> rfl
  inserted := by
    intro record db h
    change (insert record db).1 = _ at h
    change table (insert record db).2 = _
    unfold insert at h ⊢
    split at h
    · exact absurd h Bool.false_ne_true
    · rename_i hfree
      rw [dif_neg hfree]
      rfl
  notInserted := by
    intro record db h
    change (insert record db).1 = _ at h
    change table (insert record db).2 = _
    unfold insert at h ⊢
    split at h
    · rename_i hrefused
      rw [dif_pos hrefused]
      rfl
    · exact absurd h.symm Bool.false_ne_true
  updated := by
    intro username elo db changes h
    change (update username elo db).1 = _ at h
    change table (update username elo db).2 = _ ∧ _
    unfold update at h ⊢
    split at h
    · exact absurd h.symm (Option.some_ne_none _)
    · rename_i hworks
      rw [if_neg hworks]
      exact ⟨rfl, (Option.some.inj h).symm⟩
  notUpdated := by
    intro username elo db h
    change (update username elo db).1 = _ at h
    change table (update username elo db).2 = _
    unfold update at h ⊢
    split at h
    · rename_i hfails
      rw [if_pos hfails]
      rfl
    · exact absurd h (Option.some_ne_none _)

/-- An empty table; some of the next statements fail. -/
def empty (failures : List Bool) : MemoryTable :=
  { rows := [], failures := failures, primaryKey := List.nodup_nil }

end MemoryTable

namespace UserStore

/-- The digests of two passwords with one salt. -/
def sampleHash (password salt : StdString) : CText :=
  if password ++ salt = "secret000102030405060708090a0b0c0d0e0f".toList then
    ⟨"97c6300c49850a9d597b238a35f07296f220f9de15176091d37d6e343a07106e".toList, by decide⟩
  else ⟨"cb93aeeae5ee915cf20c899cc571e78c1b2fce345e39aa6525c9ddc09f636941".toList, by decide⟩

def sampleSalt : CText := ⟨"000102030405060708090a0b0c0d0e0f".toList, by decide⟩

/-- Ann and Bob have registered, and the third of the next statements fails. -/
def annAndBob : UserStore MemoryTable where
  db :=
    { rows :=
        [{ username := "ann".toList, passwordHash := "0a".toList, salt := "01".toList },
          { username := "bob".toList, passwordHash := "0b".toList, salt := "02".toList }]
      failures := [false, false, true]
      primaryKey := by decide }

/-- The database is locked when Ann's rating is to be written. -/
def lockedAtUpdate : UserStore MemoryTable := { db := .empty [false, false, false, true] }

theorem authenticate_run_sample :
    let registered := (lockedAtUpdate.authenticateOrRegister MemoryTable.sqlite sampleHash
      "ann".toList "secret".toList sampleSalt).2
    let later := registered.run MemoryTable.sqlite sampleHash
      [.updateElo "ann".toList 1216, .create "ann".toList "guess".toList sampleSalt]
    let login := later.authenticateOrRegister MemoryTable.sqlite sampleHash "ann".toList
      "guess".toList sampleSalt
    (login.1 = true →
      sampleHash "guess".toList sampleSalt = sampleHash "secret".toList sampleSalt) ∧
    (later.Answers MemoryTable.sqlite "ann".toList →
      (later.find MemoryTable.sqlite "ann".toList).2.Answers MemoryTable.sqlite "ann".toList →
        login.1 = decide (sampleHash "guess".toList sampleSalt =
          sampleHash "secret".toList sampleSalt)) ∧
    login.2.db.table = later.db.table :=
  authenticate_run MemoryTable.sqlite lockedAtUpdate sampleHash MemoryTable.documented_sqlite rfl
    (by decide) rfl "secret".toList "guess".toList sampleSalt sampleSalt (by decide)
    [.updateElo "ann".toList 1216, .create "ann".toList "guess".toList sampleSalt]

end UserStore

end KongFuChess.Db
