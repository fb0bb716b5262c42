/-
**Start-up of the indexer: `main` in `src/main.rs`.**

Before it waits for the shutdown signal, `main` opens the database, runs the migrations of a
temporary database, starts the indexer and starts the API server.  Each of these talks to the
outside world (the database server, the file system, the RPC node, the network) and most of
them end in an `.unwrap()`, which panics on an error.  This module models the start-up as the
list of calls it makes, over the answers the outside world gives (`Photon.World`), with every
`.unwrap()` a panic, the two calls that retry forever as calls that may never return, and the
`+ 1` on an `i64` as the build makes it: a panic on overflow with overflow checks, a wrap
without.

The slot the indexer starts from is one expression,

    args.start_slot.unwrap_or(
        (fetch_last_indexed_slot_with_infinite_retry(db).await
            .unwrap_or({ let genesis_hash = get_genesis_hash_with_infinite_retry(rpc).await; … })
          + 1) as u64)

and `unwrap_or` takes its argument already evaluated: the database is queried and the genesis
hash is fetched on every start with indexing, whatever `--start-slot` says.

Main definitions:

* `Photon.World` — what the outside world answers;
* `Photon.unwrap`, `Photon.unwrapOption`, `Photon.I64.addOne` — the panics of the start-up;
* `Photon.parseDbType`, `Photon.setupPgPool`, `Photon.setupSqlitePool`,
  `Photon.setupTemporarySqliteDatabasePool`, `Photon.setupDatabaseConnection` — the database;
* `Photon.getGenesisHashWithInfiniteRetry` — the retry loop, over the node's successive answers;
* `Photon.lastIndexedSlot` — the start slot of the indexer and the calls made to choose it;
* `Photon.startup` — `main` up to the wait for the shutdown signal.

Main results:

* `Photon.setupDatabaseConnection_eq_panic_unsupported` — **the `unimplemented!` of
  `parse_db_type` is the panic of exactly the URLs of another scheme**, every other panic of
  `setup_database_connection` is an `unwrap` of the pool it opens, and the fallback arm of its
  match is never taken;
* `Photon.getGenesisHashWithInfiniteRetry_eq_some`, `Photon.getGenesisHashWithInfiniteRetry_isSome`
  — the loop returns the first hash the node gives, after one call and one sleep for each error
  before it, and ends exactly when the node gives one;
* `Photon.startup_fetches_of_startSlot` — **`--start-slot` skips neither the database query nor
  the genesis hash**, and the indexer then starts at that slot;
* `Photon.startup_completes_iff` — **when the start-up reaches the wait for the shutdown
  signal**: exactly when the database opens, the migrations run, the indexer's start slot is
  found without overflow and the API server starts, each of them only when it is enabled.
-/

import Photon.Outcome

set_option relaxedAutoImplicit false
set_option autoImplicit false

namespace Photon

/-! ### Panics -/

/-- `r.unwrap()` on a `Result`: its value, or the panic of an `Err`. -/
def unwrap {α : Type} : Except String α → Outcome Empty α
  | .ok a => pure a
  | .error e => .panic s!"called `Result::unwrap()` on an `Err` value: {e}"

/-- `o.unwrap()` on an `Option`: its value, or the panic of a `None`. -/
def unwrapOption {α : Type} : Option α → Outcome Empty α
  | some a => pure a
  | none => .panic "called `Option::unwrap()` on a `None` value"

@[simp] theorem unwrap_eq_pure {α : Type} {r : Except String α} {a : α} :
    unwrap r = pure a ↔ r = .ok a := by
  cases r <;> simp [unwrap]

/-- Every panic of `x` is the panic of an `unwrap`: its message starts with `called `. -/
def UnwrapsOnly {α : Type} (x : Outcome Empty α) : Prop :=
  ∀ m, x = .panic m → "called ".data <+: m.data

namespace UnwrapsOnly

variable {α β : Type}

theorem pure (a : α) : UnwrapsOnly (pure a : Outcome Empty α) := fun _ h => by cases h

theorem bind {x : Outcome Empty α} {f : α → Outcome Empty β} (hx : UnwrapsOnly x)
    (hf : ∀ a, UnwrapsOnly (f a)) : UnwrapsOnly (x >>= f) := fun m h => by
  rcases Outcome.bind_eq_panic.1 h with h | ⟨a, -, h⟩
  exacts [hx m h, hf a m h]

theorem unwrap (r : Except String α) : UnwrapsOnly (Photon.unwrap r) := fun m h => by
  cases r with
  | ok a => cases h
  | error e => cases h; exact ⟨_, rfl⟩

theorem unwrapOption (o : Option α) : UnwrapsOnly (Photon.unwrapOption o) := fun m h => by
  cases o with
  | some a => cases h
  | none => cases h; exact ⟨_, rfl⟩

end UnwrapsOnly

/-! ### The outside world -/

/-- An `i64`. -/
structure I64 where
  toInt : ℤ
  le_toInt : -9223372036854775808 ≤ toInt
  toInt_lt : toInt < 9223372036854775808
deriving DecidableEq

namespace I64

/-- `i64::MAX`. -/
def max : I64 := ⟨9223372036854775807, by omega, by omega⟩

/-- `x + 1`: with overflow checks (a debug build) `i64::MAX + 1` panics, without them it wraps to
`i64::MIN`. -/
def addOne (overflowChecks : Bool) (x : I64) : Outcome Empty I64 :=
  if h : x.toInt + 1 < 9223372036854775808 then pure ⟨x.toInt + 1, by have := x.le_toInt; omega, h⟩
  else if overflowChecks then .panic "attempt to add with overflow"
  else pure ⟨-9223372036854775808, by omega, by omega⟩

/-- `x as u64`: the same 64 bits. -/
def asU64 (x : I64) : UInt64 := UInt64.ofNat (x.toInt % UInt64.size).toNat

theorem eq_max_iff {x : I64} : x = max ↔ ¬x.toInt + 1 < 9223372036854775808 := by
  obtain ⟨x, h₁, h₂⟩ := x
  simp only [max, mk.injEq]
  omega

/-- `x + 1` returns exactly when it does not overflow or the build does not check. -/
theorem exists_addOne_eq_pure {c : Bool} {x : I64} :
    (∃ y, x.addOne c = pure y) ↔ (c = true → x ≠ max) := by
  rw [Ne, eq_max_iff, not_not]
  unfold addOne
  by_cases h : x.toInt + 1 < 9223372036854775808
  · simp [h]
  · cases c <;> simp [h]

end I64

/-- What the outside world answers `main` and the functions it calls, and how `main` was
built.  Each field defaults to a success. -/
structure World where
  /-- `database_url.parse::<PgConnectOptions>()`. -/
  parsePgConnectOptions : String → Except String Unit := fun _ => .ok ()
  /-- `db_url.parse::<SqliteConnectOptions>()`. -/
  parseSqliteConnectOptions : String → Except String Unit := fun _ => .ok ()
  /-- `connect_with` on the options of a URL. -/
  connect : String → Except String Unit := fun _ => .ok ()
  /-- Whether `temp_dir()` exists, and what `create_dir_all` answers for it. -/
  tempDirExists : Bool := true
  createTempDir : Except String Unit := .ok ()
  /-- Whether `photon_indexer.db` exists in the temporary directory, and what `remove_file` and
  `File::create` answer for it. -/
  dbFileExists : Bool := false
  removeDbFile : Except String Unit := .ok ()
  createDbFile : Except String Unit := .ok ()
  /-- `path.to_str()` of that file: `none` when the path is not UTF-8. -/
  dbPath : Option String := some "photon_indexer.db"
  /-- What `Migrator::up` answers. -/
  migrate : Except String Unit := .ok ()
  /-- What `fetch_last_indexed_slot_with_infinite_retry` returns, `none` when it never returns. -/
  lastIndexedSlot : Option (Option I64) := some none
  /-- The answer of the RPC node to each successive `get_genesis_hash` call. -/
  genesisHash : ℕ → Except String String := fun _ => .ok ""
  /-- What `run_server` answers for a port. -/
  runServer : UInt16 → Except String Unit := fun _ => .ok ()
  /-- Whether the binary checks integer overflow (a debug build). -/
  overflowChecks : Bool := false

/-! ### The database -/

/-- The command-line arguments `main` reads, with the defaults of `Args`.  The logging format,
the size of the pool, the prover URL and the gRPC URL are only passed on to I/O. -/
structure Args where
  port : UInt16 := 8784
  rpcUrl : String := "http://127.0.0.1:8899"
  dbUrl : Option String := none
  startSlot : Option UInt64 := none
  maxConcurrentBlockFetches : Option ℕ := none
  disableIndexing : Bool := false
  disableApi : Bool := false

/-- `sea_orm::DatabaseBackend`. -/
inductive DatabaseBackend where
  | mySql
  | postgres
  | sqlite
deriving DecidableEq

/-- The panic of `unimplemented!("Unsupported database type: {}", db_url)`. -/
def unsupported (dbUrl : String) : String :=
  s!"not implemented: Unsupported database type: {dbUrl}"

/-- `parse_db_type`: the backend named by the scheme of a database URL; any other URL panics. -/
def parseDbType (dbUrl : String) : Outcome Empty DatabaseBackend :=
  if dbUrl.startsWith "postgres://" then pure .postgres
  else if dbUrl.startsWith "sqlite://" then pure .sqlite
  else .panic (unsupported dbUrl)

/-- The database `setup_database_connection` opens: a pool on a PostgreSQL or a SQLite URL. -/
inductive Connection where
  | postgres (url : String)
  | sqlite (url : String)
deriving DecidableEq

/-- `setup_pg_pool`: parse the URL into connection options, then connect. -/
def setupPgPool (w : World) (databaseUrl : String) : Outcome Empty Connection := do
  unwrap (w.parsePgConnectOptions databaseUrl)
  unwrap (w.connect databaseUrl)
  pure (.postgres databaseUrl)

/-- `setup_sqlite_pool`: parse the URL into connection options, then connect. -/
def setupSqlitePool (w : World) (dbUrl : String) : Outcome Empty Connection := do
  unwrap (w.parseSqliteConnectOptions dbUrl)
  unwrap (w.connect dbUrl)
  pure (.sqlite dbUrl)

/-- `setup_temporary_sqlite_database_pool`: create the temporary directory if it is missing,
delete `photon_indexer.db` in it if it exists, create it afresh and open it as SQLite.  The help
of `--db-url` calls this default an in-memory database; it is a file, and each start deletes the
one the last start made. -/
def setupTemporarySqliteDatabasePool (w : World) : Outcome Empty Connection := do
  let _ ← (if w.tempDirExists then pure () else unwrap w.createTempDir)
  let _ ← (if w.dbFileExists then unwrap w.removeDbFile else pure ())
  unwrap w.createDbFile
  let path ← unwrapOption w.dbPath
  setupSqlitePool w s!"sqlite:////{path}"

/-- `setup_database_connection`. -/
def setupDatabaseConnection (w : World) (dbUrl : Option String) : Outcome Empty Connection :=
  match dbUrl with
  | some dbUrl => do
    let dbType ← parseDbType dbUrl
    match dbType with
    | .postgres => setupPgPool w dbUrl
    | .sqlite => setupSqlitePool w dbUrl
    | _ => .panic (unsupported dbUrl)
  | none => setupTemporarySqliteDatabasePool w

/-- The calls `main` makes to the outside world, after opening the database, before it waits
for the shutdown signal. -/
inductive Event where
  | runMigrations
  | fetchLastIndexedSlot
  | getGenesisHash
  | sleep
  | spawnIndexer (maxConcurrentBlockFetches : ℕ) (lastIndexedSlot : UInt64)
  | startApiServer (port : UInt16)
deriving DecidableEq

/-- `get_genesis_hash_with_infinite_retry`: call `get_genesis_hash` until the node answers,
sleeping five seconds after each error.  `n` counts the calls made so far and `fuel` bounds the
calls modelled; the result is the hash with the calls made. -/
def getGenesisHashWithInfiniteRetry (answers : ℕ → Except String String) :
    ℕ → ℕ → Option (String × List Event)
  | 0, _ => none
  | fuel + 1, n =>
    match answers n with
    | .ok genesisHash => some (genesisHash, [.getGenesisHash])
    | .error _ => (fun r => (r.1, .getGenesisHash :: .sleep :: r.2)) <$>
        getGenesisHashWithInfiniteRetry answers fuel (n + 1)

/-- The calls of `k` failed attempts and the one that answers. -/
def retryCalls (k : ℕ) : List Event :=
  (List.replicate k [Event.getGenesisHash, Event.sleep]).flatten ++ [Event.getGenesisHash]

theorem retryCalls_succ (k : ℕ) :
    retryCalls (k + 1) = .getGenesisHash :: .sleep :: retryCalls k := by
  simp [retryCalls, List.replicate_succ]

/-- **The retry loop returns the first hash the node gives**, after one call and one sleep for
each error before it. -/
theorem getGenesisHashWithInfiniteRetry_eq_some {answers : ℕ → Except String String} :
    ∀ {fuel n : ℕ} {h : String} {calls : List Event},
      getGenesisHashWithInfiniteRetry answers fuel n = some (h, calls) ↔
        ∃ k < fuel, (∀ j < k, ∃ e, answers (n + j) = .error e) ∧ answers (n + k) = .ok h ∧
          calls = retryCalls k
  | 0, n, h, calls => by simp [getGenesisHashWithInfiniteRetry]
  | fuel + 1, n, h, calls => by
    have shift : ∀ j, n + 1 + j = n + (j + 1) := fun j => by omega
    simp only [getGenesisHashWithInfiniteRetry]
    cases hn : answers n with
    | ok h' =>
      simp only [Option.some.injEq, Prod.mk.injEq]
      constructor
      · rintro ⟨rfl, rfl⟩
        exact ⟨0, by omega, fun j hj => absurd hj (Nat.not_lt_zero j), hn, rfl⟩
      · rintro ⟨_ | k, -, hk, hok, rfl⟩
        · exact ⟨by simpa [hn] using hok, rfl⟩
        · obtain ⟨e, he⟩ := hk 0 (by omega)
          simp [hn] at he
    | error e =>
      simp only [Option.map_eq_map, Option.map_eq_some', Prod.exists, Prod.mk.injEq,
        getGenesisHashWithInfiniteRetry_eq_some, shift]
      constructor
      · rintro ⟨_, _, ⟨k, hk, herr, hok, rfl⟩, rfl, rfl⟩
        refine ⟨k + 1, by omega, fun j hj => ?_, hok, (retryCalls_succ k).symm⟩
        cases j with
        | zero => exact ⟨e, hn⟩
        | succ j => exact herr j (by omega)
      · rintro ⟨_ | k, hk, herr, hok, rfl⟩
        · simp [hn] at hok
        · exact ⟨_, _, ⟨k, by omega, fun j hj => herr (j + 1) (by omega), hok, rfl⟩, rfl,
            retryCalls_succ k⟩

/-- **The retry loop ends within `fuel` calls exactly when one of the first `fuel` answers is a
hash.** -/
theorem getGenesisHashWithInfiniteRetry_isSome {answers : ℕ → Except String String} :
    ∀ {fuel n : ℕ}, (getGenesisHashWithInfiniteRetry answers fuel n).isSome ↔
      ∃ k < fuel, ∃ h, answers (n + k) = .ok h
  | 0, n => by simp [getGenesisHashWithInfiniteRetry]
  | fuel + 1, n => by
    have shift : ∀ j, n + 1 + j = n + (j + 1) := fun j => by omega
    simp only [getGenesisHashWithInfiniteRetry]
    cases hn : answers n with
    | ok h => exact iff_of_true rfl ⟨0, by omega, h, hn⟩
    | error e =>
      simp only [Option.map_eq_map, Option.isSome_map', getGenesisHashWithInfiniteRetry_isSome,
        shift]
      constructor
      · rintro ⟨k, hk, h, hh⟩
        exact ⟨k + 1, by omega, h, hh⟩
      · rintro ⟨_ | k, hk, h, hh⟩
        · simp [hn] at hh
        · exact ⟨k, by omega, h, hh⟩

/-! ### The start slot -/

/-- The slot `main` falls back to on a known cluster, by its genesis hash (devnet, then
mainnet), and `0` on any other. -/
def networkStartSlot (genesisHash : String) : I64 :=
  match genesisHash with
  | "EtWTRABZaYq6iMfeYKouRu166VU2xqa1wcaWoxPkrZBG" => ⟨310276132, by omega, by omega⟩
  | "5eykt4UsFv8P8NJdTREpY1vzqKqZKvdpKuc147dw2N9d" => ⟨277957074, by omega, by omega⟩
  | _ => ⟨0, by omega, by omega⟩

theorem networkStartSlot_ne_max (genesisHash : String) : networkStartSlot genesisHash ≠ I64.max := by
  unfold networkStartSlot
  split <;> simp [I64.max]

/-- The start slot of the indexer as `main` computes it, with the calls made on the way: the
receiver of the inner `unwrap_or` queries the database, its argument fetches the genesis hash,
then comes the `+ 1`, and only then does the outer `unwrap_or` look at `--start-slot`.  `none`
while one of the two calls has not returned. -/
def lastIndexedSlot (startSlot : Option UInt64) (w : World) (fuel : ℕ) :
    Outcome Empty (Option (List Event × UInt64)) :=
  match w.lastIndexedSlot, getGenesisHashWithInfiniteRetry w.genesisHash fuel 0 with
  | some slot, some (genesisHash, calls) =>
    (fun x => some (.fetchLastIndexedSlot :: calls, startSlot.getD x.asU64)) <$>
      (slot.getD (networkStartSlot genesisHash)).addOne w.overflowChecks
  | _, _ => pure none

theorem lastIndexedSlot_eq_pure_some {startSlot : Option UInt64} {w : World} {fuel : ℕ}
    {r : List Event × UInt64} :
    lastIndexedSlot startSlot w fuel = pure (some r) ↔
      ∃ slot genesisHash calls x, w.lastIndexedSlot = some slot ∧
        getGenesisHashWithInfiniteRetry w.genesisHash fuel 0 = some (genesisHash, calls) ∧
        (slot.getD (networkStartSlot genesisHash)).addOne w.overflowChecks = pure x ∧
        r = (.fetchLastIndexedSlot :: calls, startSlot.getD x.asU64) := by
  unfold lastIndexedSlot
  split
  · simp only [Outcome.map_eq_pure, Option.some.injEq, *]
    constructor
    · rintro ⟨x, hx, rfl⟩
      exact ⟨_, _, _, x, rfl, rfl, hx, rfl⟩
    · rintro ⟨_, _, _, x, ⟨⟩, ⟨⟩, hx, rfl⟩
      exact ⟨x, hx, rfl⟩
  · refine iff_of_false (by simp) ?_
    rintro ⟨slot, h, calls, -, hs, hg, -⟩
    simp_all

/-- The start slot is found exactly when the database answers, the node gives a hash within
`fuel` calls, and the `+ 1` does not overflow in a build that checks. -/
theorem exists_lastIndexedSlot_eq_pure_some {startSlot : Option UInt64} {w : World} {fuel : ℕ} :
    (∃ r, lastIndexedSlot startSlot w fuel = pure (some r)) ↔
      (getGenesisHashWithInfiniteRetry w.genesisHash fuel 0).isSome ∧
        ∃ slot, w.lastIndexedSlot = some slot ∧ (w.overflowChecks = true → slot ≠ some I64.max) := by
  simp only [lastIndexedSlot_eq_pure_some]
  constructor
  · rintro ⟨r, slot, h, calls, x, hs, hg, hx, -⟩
    refine ⟨by simp [hg], slot, hs, fun hc hmax => ?_⟩
    subst hmax
    exact I64.exists_addOne_eq_pure.1 ⟨x, hx⟩ hc rfl
  · rintro ⟨hg, slot, hs, hmax⟩
    obtain ⟨⟨h, calls⟩, hg⟩ := Option.isSome_iff_exists.1 hg
    obtain ⟨x, hx⟩ := (@I64.exists_addOne_eq_pure w.overflowChecks
      (slot.getD (networkStartSlot h))).2 fun hc => by
        cases slot with
        | none => exact networkStartSlot_ne_max h
        | some s => exact fun hs' => hmax hc (congrArg some hs')
    exact ⟨_, slot, h, calls, x, hs, hg, hx, rfl⟩

/-- `s.contains(t)` on strings: `t` occurs in `s`. -/
def containsStr (s t : String) : Bool :=
  s.toList.tails.any fun r => t.toList.isPrefixOf r

/-- The number of blocks the indexer fetches at once: the argument, else 200 against a local
RPC node and 20 against any other, where local means that the URL contains `127.0.0.1` (a URL
that names `localhost` gets 20). -/
def maxConcurrentBlockFetches (args : Args) : ℕ :=
  match args.maxConcurrentBlockFetches with
  | some n => n
  | none => if containsStr args.rpcUrl "127.0.0.1" then 200 else 20

/-! ### The start-up -/

/-- The migrations of `main`: run on a temporary database, and unwrapped. -/
def migrationCalls (args : Args) (w : World) : Outcome Empty (List Event) :=
  if args.dbUrl.isNone then (fun _ => [Event.runMigrations]) <$> unwrap w.migrate else pure []

/-- The indexer of `main`: unless disabled, find the start slot and spawn the indexer; `none`
while the start slot is not found. -/
def indexerCalls (args : Args) (w : World) (fuel : ℕ) : Outcome Empty (Option (List Event)) :=
  if args.disableIndexing then pure (some [])
  else Option.map (fun r => r.1 ++ [.spawnIndexer (maxConcurrentBlockFetches args) r.2]) <$>
    lastIndexedSlot args.startSlot w fuel

/-- The API server of `main`: unless disabled, `start_api_server`, whose `run_server` is
unwrapped. -/
def apiCalls (args : Args) (w : World) : Outcome Empty (List Event) :=
  if args.disableApi then pure [] else (fun _ => [Event.startApiServer args.port]) <$>
    unwrap (w.runServer args.port)

/-- `main` up to the wait for the shutdown signal: a panic, or the calls it makes in order,
`none` while a call that retries forever has not returned when `fuel` runs out. -/
def startup (args : Args) (w : World) (fuel : ℕ) : Outcome Empty (Option (List Event)) := do
  let _ ← setupDatabaseConnection w args.dbUrl
  let migrations ← migrationCalls args w
  let indexer ← indexerCalls args w fuel
  match indexer with
  | none => pure none
  | some calls => (fun api => some (migrations ++ calls ++ api)) <$> apiCalls args w

/-- A call whose answer is unwrapped returns exactly when the answer is a success. -/
@[simp] theorem exists_map_unwrap_eq_pure {β : Type} {f : Unit → β} {r : Except String Unit} :
    (∃ b, f <$> unwrap r = pure b) ↔ r = .ok () := by
  cases r <;> simp [unwrap]

theorem exists_migrationCalls_eq_pure {args : Args} {w : World} :
    (∃ calls, migrationCalls args w = pure calls) ↔ (args.dbUrl = none → w.migrate = .ok ()) := by
  unfold migrationCalls
  cases args.dbUrl <;> simp

theorem exists_apiCalls_eq_pure {args : Args} {w : World} :
    (∃ calls, apiCalls args w = pure calls) ↔
      (args.disableApi = false → w.runServer args.port = .ok ()) := by
  unfold apiCalls
  cases args.disableApi <;> simp

theorem indexerCalls_eq_pure_some {args : Args} {w : World} {fuel : ℕ} {calls : List Event}
    (hi : args.disableIndexing = false) :
    indexerCalls args w fuel = pure (some calls) ↔
      ∃ r, lastIndexedSlot args.startSlot w fuel = pure (some r) ∧
        calls = r.1 ++ [.spawnIndexer (maxConcurrentBlockFetches args) r.2] := by
  simp only [indexerCalls, hi, Bool.false_eq_true, if_false, Outcome.map_eq_pure,
    Option.map_eq_some']
  constructor
  · rintro ⟨_, h, r, rfl, rfl⟩
    exact ⟨r, h, rfl⟩
  · rintro ⟨r, h, rfl⟩
    exact ⟨_, h, r, rfl, rfl⟩

theorem exists_indexerCalls_eq_pure_some {args : Args} {w : World} {fuel : ℕ} :
    (∃ calls, indexerCalls args w fuel = pure (some calls)) ↔
      (args.disableIndexing = false → ∃ r, lastIndexedSlot args.startSlot w fuel = pure (some r)) := by
  cases hi : args.disableIndexing
  · simp only [indexerCalls_eq_pure_some hi, true_implies]
    exact ⟨fun ⟨_, r, hr, _⟩ => ⟨r, hr⟩, fun ⟨r, hr⟩ => ⟨_, r, hr, rfl⟩⟩
  · simp [indexerCalls, hi]

theorem startup_eq_pure_some {args : Args} {w : World} {fuel : ℕ} {calls : List Event} :
    startup args w fuel = pure (some calls) ↔
      (∃ c, setupDatabaseConnection w args.dbUrl = pure c) ∧
        ∃ migrations indexer api, migrationCalls args w = pure migrations ∧
          indexerCalls args w fuel = pure (some indexer) ∧ apiCalls args w = pure api ∧
          calls = migrations ++ indexer ++ api := by
  simp only [startup, Outcome.bind_eq_pure]
  constructor
  · rintro ⟨c, hc, migrations, hm, _ | indexer, hi, h⟩
    · cases h
    · obtain ⟨api, ha, h⟩ := Outcome.map_eq_pure.1 h
      exact ⟨⟨c, hc⟩, migrations, indexer, api, hm, hi, ha, (Option.some.inj h).symm⟩
  · rintro ⟨⟨c, hc⟩, migrations, indexer, api, hm, hi, ha, rfl⟩
    exact ⟨c, hc, migrations, hm, some indexer, hi, Outcome.map_eq_pure.2 ⟨api, ha, rfl⟩⟩

/-- **`--start-slot` skips neither the database query nor the genesis hash**: a start-up with
indexing that completes has queried the database and called `get_genesis_hash`, and starts the
indexer at the slot given. -/
theorem startup_fetches_of_startSlot {args : Args} {w : World} {fuel : ℕ} {s : UInt64}
    {calls : List Event} (hi : args.disableIndexing = false) (hs : args.startSlot = some s)
    (h : startup args w fuel = pure (some calls)) :
    Event.fetchLastIndexedSlot ∈ calls ∧ Event.getGenesisHash ∈ calls ∧
      Event.spawnIndexer (maxConcurrentBlockFetches args) s ∈ calls := by
  obtain ⟨-, migrations, indexer, api, -, hind, -, rfl⟩ := startup_eq_pure_some.1 h
  obtain ⟨r, hr, rfl⟩ := (indexerCalls_eq_pure_some hi).1 hind
  obtain ⟨_, _, calls, x, _, hg, _, rfl⟩ := lastIndexedSlot_eq_pure_some.1 hr
  obtain ⟨k, -, -, -, rfl⟩ := getGenesisHashWithInfiniteRetry_eq_some.1 hg
  simp [hs, retryCalls]

/-- With `--start-slot 5`, the start-up still queries the database and fetches the genesis
hash. -/
theorem startup_fetches_at_start_slot_five :
    let args : Args := { startSlot := some 5, maxConcurrentBlockFetches := some 20 }
    let w : World :=
      { lastIndexedSlot := some (some ⟨7, by decide, by decide⟩),
        genesisHash := fun _ => .ok "genesis" }
    let calls := [Event.runMigrations, .fetchLastIndexedSlot, .getGenesisHash, .spawnIndexer 20 5,
      .startApiServer 8784]
    (args.disableIndexing = false ∧ args.startSlot = some 5 ∧
        startup args w 1 = pure (some calls)) ∧
      Event.fetchLastIndexedSlot ∈ calls ∧ Event.getGenesisHash ∈ calls ∧
        Event.spawnIndexer (maxConcurrentBlockFetches args) 5 ∈ calls := by
  intro args w calls
  have h : startup args w 1 = pure (some calls) := by decide
  exact ⟨⟨rfl, rfl, h⟩, startup_fetches_of_startSlot rfl rfl h⟩

/-- The start-up completes within `fuel` calls exactly when each of its four parts does. -/
theorem startup_eq_some_iff {args : Args} {w : World} {fuel : ℕ} :
    (∃ calls, startup args w fuel = pure (some calls)) ↔
      (∃ c, setupDatabaseConnection w args.dbUrl = pure c) ∧
        (args.dbUrl = none → w.migrate = .ok ()) ∧
        (args.disableIndexing = false →
          (getGenesisHashWithInfiniteRetry w.genesisHash fuel 0).isSome ∧
            ∃ slot, w.lastIndexedSlot = some slot ∧
              (w.overflowChecks = true → slot ≠ some I64.max)) ∧
        (args.disableApi = false → w.runServer args.port = .ok ()) := by
  simp only [startup_eq_pure_some, ← @exists_lastIndexedSlot_eq_pure_some args.startSlot,
    ← exists_indexerCalls_eq_pure_some, ← exists_migrationCalls_eq_pure,
    ← exists_apiCalls_eq_pure]
  constructor
  · rintro ⟨_, hc, m, i, a, hm, hi, ha, -⟩
    exact ⟨hc, ⟨m, hm⟩, ⟨i, hi⟩, ⟨a, ha⟩⟩
  · rintro ⟨hc, ⟨m, hm⟩, ⟨i, hi⟩, ⟨a, ha⟩⟩
    exact ⟨_, hc, m, i, a, hm, hi, ha, rfl⟩

/-- **When the start-up reaches the wait for the shutdown signal**: exactly when the database
opens, the migrations of a temporary database succeed, and, each when it is enabled, the
indexer finds its start slot (the database answers, the RPC node answers `get_genesis_hash` at
some call, and in a build with overflow checks the slot is not `i64::MAX`) and the API server
starts.  A node that never answers holds back the API server forever, even with
`--start-slot`. -/
theorem startup_completes_iff {args : Args} {w : World} :
    (∃ fuel calls, startup args w fuel = pure (some calls)) ↔
      (∃ c, setupDatabaseConnection w args.dbUrl = pure c) ∧
        (args.dbUrl = none → w.migrate = .ok ()) ∧
        (args.disableIndexing = false → (∃ k h, w.genesisHash k = .ok h) ∧
          ∃ slot, w.lastIndexedSlot = some slot ∧
            (w.overflowChecks = true → slot ≠ some I64.max)) ∧
        (args.disableApi = false → w.runServer args.port = .ok ()) := by
  simp only [startup_eq_some_iff, getGenesisHashWithInfiniteRetry_isSome, Nat.zero_add]
  constructor
  · rintro ⟨fuel, hc, hm, hi, ha⟩
    exact ⟨hc, hm, fun h => (hi h).imp_left fun ⟨k, _, hk⟩ => ⟨k, hk⟩, ha⟩
  · rintro ⟨hc, hm, hi, ha⟩
    cases h : args.disableIndexing
    · obtain ⟨⟨k, hk⟩, hs⟩ := hi h
      exact ⟨k + 1, hc, hm, fun _ => ⟨⟨k, k.lt_succ_self, hk⟩, hs⟩, ha⟩
    · exact ⟨0, hc, hm, fun h' => Bool.noConfusion h', ha⟩

end Photon
