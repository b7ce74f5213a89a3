import NodeGet.Core.Backend
import NodeGet.Core.Signed
import NodeGet.Data.Chunks
import NodeGet.Data.Table
import NodeGet.Monitoring.UuidCache
import NodeGet.Token.Cache
import NodeGet.Traffic.Detail

/-! Writing total-traffic snapshots
(`ng-monitoring/src/rpc/agent/write_traffic_snapshot.rs`).

A request carries up to 10 000 snapshots. All of them are checked first; those of
unknown or deleted agents are left out; the rest is written in one transaction, as
many rows a statement as the database has parameters for, each statement with
`ON CONFLICT DO NOTHING` on the unique index. So a duplicate is ignored wherever the
first one is: in the table, in an earlier statement or in the same one, and
`write_atomic_idempotent` does not depend on where the request is cut. -/
namespace NodeGet.TrafficSnapshot
open NodeGet.Core NodeGet.Data NodeGet.TrafficDetail
open NodeGet.Token (TokenOrAuth fromFullToken)
open NodeGet.Monitoring.UuidCache (Cache)

abbrev Row := TrafficDetail.TrafficSnapshot String

/-- The columns of the unique index. -/
def indexKey (row : Row) : Int16 × String × Int64 := (row.uuidId, row.interfaceName, row.snapshotTime)

structure TrafficSnapshotWrite where
  uuid : Uuid
  interfaceName : String
  snapshotTime : Int64
  totalReceived : Int64
  totalTransmitted : Int64

structure TrafficSnapshotWriteResponse where
  inserted : UInt64
  ignored : UInt64
  skipped : UInt64
deriving DecidableEq

/-! ### Checks -/

def maxSnapshotsPerRequest : Nat := 10000

def maxInterfaceNameChars : Nat := 255

def maxFutureMs : Int64 := 60 * 1000

def validateSnapshot (now : Int64) (snapshot : TrafficSnapshotWrite) : Except NodegetError Unit := do
  let nameChars := snapshot.interfaceName.length
  if nameChars = 0 ∨ nameChars > maxInterfaceNameChars then
    .error (.invalidInput "interface_name must be 1 to 255 characters")
  if snapshot.snapshotTime < 0 ∨ snapshot.snapshotTime > saturatingAddI64 now maxFutureMs then
    .error (.invalidInput ("snapshot_time " ++ toString snapshot.snapshotTime.toInt ++ " of " ++
      snapshot.interfaceName ++ " is negative or more than 1 minute in the future"))
  if snapshot.totalReceived < 0 ∨ snapshot.totalTransmitted < 0 then
    .error (.invalidInput ("total_received and total_transmitted of " ++ snapshot.interfaceName ++
      " must not be negative"))

def validateSnapshots (snapshots : List TrafficSnapshotWrite) (now : Int64) : Except NodegetError Unit :=
  if snapshots.length > maxSnapshotsPerRequest then
    .error (.invalidInput "at most 10000 snapshots per request")
  else snapshots.forM (validateSnapshot now)

variable {snapshots : List TrafficSnapshotWrite} {server : Server} {uuidCache : Cache} {db : Database}
  {k chunkRows : Nat} {pieces : List (List Row)} {table table' : Table} {inserted : UInt64} {rows : List Row}
  {token : String}

theorem length_le_of_validateSnapshots {now : Int64} (h : validateSnapshots snapshots now = .ok ()) :
    snapshots.length ≤ 10000 := by
  rw [validateSnapshots] at h
  split at h
  next => cases h
  next hle => exact Nat.le_of_not_lt hle

/-- The row of a snapshot, if its agent is known and active. -/
def rowOf (uuidCache : Cache) (snapshot : TrafficSnapshotWrite) : Option Row :=
  ((uuidCache.getId snapshot.uuid).filter fun _ => uuidCache.isActive snapshot.uuid).map fun uuidId =>
    { uuidId
      interfaceName := snapshot.interfaceName
      snapshotTime := snapshot.snapshotTime
      totalReceived := snapshot.totalReceived
      totalTransmitted := snapshot.totalTransmitted }

/-- The loop over the request: rows so far and how many snapshots were skipped. -/
def collectRows (uuidCache : Cache) : List TrafficSnapshotWrite → List Row → UInt64 → List Row × UInt64
  | [], rows, skipped => (rows, skipped)
  | snapshot :: rest, rows, skipped =>
    match rowOf uuidCache snapshot with
    | none => collectRows uuidCache rest rows (skipped + 1)
    | some row => collectRows uuidCache rest (rows ++ [row]) skipped

/-! ### The transaction -/

/-- What goes wrong at each statement of the transaction, if anything. -/
structure Database where
  begin : Option String
  statement : Nat → Option String
  commit : Option String

abbrev Table := SnapshotTable String

/-- `INSERT … ON CONFLICT (uuid_id, interface_name, snapshot_time) DO NOTHING` -/
def insertMany (table : Table) (chunk : List Row) : Table where
  rows := chunk.foldl (Table.insertNew indexKey) table.rows
  unique := Table.nodup_keys_foldl_insertNew table.unique chunk

/-- The statements from the `k`-th on, with the rows as the transaction sees them. -/
def insertChunks (db : Database) : Nat → List (List Row) → Table → UInt64 → Except String UInt64 × Table
  | _, [], table, inserted => (.ok inserted, table)
  | k, chunk :: rest, table, inserted =>
    match db.statement k with
    | some error => (.error error, table)
    | none =>
      let table' := insertMany table chunk
      insertChunks db (k + 1) rest table' (inserted + UInt64.ofNat (table'.rows.length - table.rows.length))

/-- The transaction: a failure at any place rolls it back to the table it began with. -/
def insertSnapshots (db : Database) (chunkRows : Nat) (table : Table) (rows : List Row) :
    Except String UInt64 × Table :=
  match db.begin with
  | some error => (.error error, table)
  | none =>
    match insertChunks db 0 (chunks chunkRows rows) table 0 with
    | (.error error, _) => (.error error, table)
    | (.ok inserted, table') =>
      match db.commit with
      | some error => (.error error, table)
      | none => (.ok inserted, table')

/-! ### The request -/

/-- What the request finds: the permission check, the clock, the agents and the database. -/
structure Server where
  checkTokenLimit : TokenOrAuth → List Scope → List Permission → Except NodegetError Bool
  now : Except NodegetError Int64
  uuidCache : Option Cache
  db : Except NodegetError Database

/-- Everything before the rows are collected. -/
def checkRequest (server : Server) (tokenOrAuth : TokenOrAuth) (snapshots : List TrafficSnapshotWrite) :
    Except NodegetError Cache := do
  let uuids := (snapshots.map (·.uuid)).dedup
  let isAllowed ← server.checkTokenLimit tokenOrAuth (uuids.map .agentUuid) [.dynamicMonitoring .write]
  if !isAllowed then
    .error (.permissionDenied "Permission Denied: Missing DynamicMonitoring Write permission")
  else
    let now ← server.now
    validateSnapshots snapshots now
    match server.uuidCache with
    | none => .error (.configNotFound "MonitoringUuidCache not initialized")
    | some uuidCache => .ok uuidCache

def writeTrafficSnapshot (server : Server) (chunkRows : Nat) (token : String)
    (snapshots : List TrafficSnapshotWrite) (table : Table) :
    Except NodegetError TrafficSnapshotWriteResponse × Table :=
  match fromFullToken token with
  | .error e => (.error (.parseError ("Failed to parse token: " ++ e)), table)
  | .ok tokenOrAuth =>
    if snapshots.isEmpty then (.ok ⟨0, 0, 0⟩, table)
    else
      match checkRequest server tokenOrAuth snapshots with
      | .error e => (.error e, table)
      | .ok uuidCache =>
        let (rows, skipped) := collectRows uuidCache snapshots [] 0
        let valid := UInt64.ofNat rows.length
        match server.db with
        | .error e => (.error e, table)
        | .ok db =>
          match insertSnapshots db chunkRows table rows with
          | (.error e, table') => (.error (.databaseError ("traffic snapshot write: " ++ e)), table')
          | (.ok inserted, table') => (.ok ⟨inserted, valid - inserted, skipped⟩, table')

/-! ### Counting -/

theorem checkRequest_ok {tokenOrAuth : TokenOrAuth} (h : checkRequest server tokenOrAuth snapshots = .ok uuidCache) :
    snapshots.length ≤ 10000 ∧ server.uuidCache = some uuidCache := by
  obtain ⟨_, -, h⟩ := ok_of_bind h
  split at h
  next => cases h
  next =>
    obtain ⟨now, -, h⟩ := ok_of_bind h
    obtain ⟨hvalid, h⟩ := check_ok_iff.mp h
    refine ⟨length_le_of_validateSnapshots hvalid, ?_⟩
    split at h
    next => cases h
    next hcache =>
      cases h
      exact hcache

/-- The snapshots of the request that may be written, as rows. -/
def validRows (uuidCache : Cache) (snapshots : List TrafficSnapshotWrite) : List Row :=
  snapshots.filterMap (rowOf uuidCache)

theorem collectRows_spec (uuidCache : Cache) (snapshots : List TrafficSnapshotWrite) (rows : List Row)
    (skipped : UInt64) :
    collectRows uuidCache snapshots rows skipped =
      (rows ++ validRows uuidCache snapshots,
        skipped + UInt64.ofNat (snapshots.length - (validRows uuidCache snapshots).length)) := by
  induction snapshots generalizing rows skipped with
  | nil => simp [collectRows, validRows]
  | cons snapshot rest ih =>
    have hle : (validRows uuidCache rest).length ≤ rest.length := List.length_filterMap_le ..
    cases hrow : rowOf uuidCache snapshot with
    | none =>
      have hvalid : validRows uuidCache (snapshot :: rest) = validRows uuidCache rest :=
        List.filterMap_cons_none hrow
      have hcount : rest.length + 1 - (validRows uuidCache rest).length =
          1 + (rest.length - (validRows uuidCache rest).length) := by omega
      simp only [collectRows, hrow]
      rw [ih, hvalid, List.length_cons, hcount, UInt64.ofNat_add, UInt64.add_assoc]
      rfl
    | some row =>
      have hvalid : validRows uuidCache (snapshot :: rest) = row :: validRows uuidCache rest :=
        List.filterMap_cons_some hrow
      simp only [collectRows, hrow]
      rw [ih, hvalid, List.length_cons, List.length_cons, Nat.add_sub_add_right, List.append_assoc,
        List.singleton_append]

/-- The statements together leave what one statement with all rows would, and count the
rows that are new. -/
theorem insertChunks_spec {inserted' : UInt64} (h : insertChunks db k pieces table inserted = (.ok inserted', table')) :
    table'.rows = pieces.flatten.foldl (Table.insertNew indexKey) table.rows ∧
      inserted' = inserted + UInt64.ofNat (table'.rows.length - table.rows.length) := by
  induction pieces generalizing k table inserted with
  | nil =>
    cases h
    simp
  | cons chunk rest ih =>
    rw [insertChunks] at h
    split at h
    next => cases h
    next =>
      obtain ⟨hrows, hcount⟩ := ih h
      have hfirst : table.rows.length ≤ (insertMany table chunk).rows.length :=
        (Table.isPrefix_foldl_insertNew table.rows chunk).length_le
      have hrest : (insertMany table chunk).rows.length ≤ table'.rows.length := by
        rw [hrows]
        exact (Table.isPrefix_foldl_insertNew (insertMany table chunk).rows rest.flatten).length_le
      refine ⟨by rw [hrows, List.flatten_cons, List.foldl_append, insertMany], ?_⟩
      rw [hcount, UInt64.add_assoc, ← UInt64.ofNat_add]
      congr 2
      omega

/-- What a successful transaction did, whatever the chunk size. -/
theorem insertSnapshots_ok (hchunk : 0 < chunkRows)
    (h : insertSnapshots db chunkRows table rows = (.ok inserted, table')) :
    table' = insertMany table rows ∧
      inserted = UInt64.ofNat ((insertMany table rows).rows.length - table.rows.length) := by
  rw [insertSnapshots] at h
  split at h
  next => cases h
  next =>
    split at h
    next => cases h
    next hchunks =>
      split at h
      next => cases h
      next =>
        cases h
        obtain ⟨hrows, hcount⟩ := insertChunks_spec hchunks
        rw [flatten_chunks hchunk] at hrows
        have htable : table' = insertMany table rows := by
          cases table'
          exact SnapshotTable.mk.injEq .. |>.mpr hrows
        exact ⟨htable, by rw [hcount, UInt64.zero_add, htable]⟩

theorem insertSnapshots_error {e : String} (h : insertSnapshots db chunkRows table rows = (.error e, table')) :
    table' = table := by
  rw [insertSnapshots] at h
  split at h
  next => exact (Prod.mk.inj h).2.symm
  next =>
    split at h
    next => exact (Prod.mk.inj h).2.symm
    next =>
      split at h
      next => exact (Prod.mk.inj h).2.symm
      next => cases h

theorem insertChunks_fails {i : Nat} (hi : i < pieces.length) (hfail : db.statement (k + i) ≠ none) (table : Table)
    (inserted : UInt64) : ∃ e table', insertChunks db k pieces table inserted = (.error e, table') := by
  induction pieces generalizing i k table inserted with
  | nil => simp at hi
  | cons chunk rest ih =>
    rw [insertChunks]
    split
    next => exact ⟨_, _, rfl⟩
    next hnone =>
      cases i with
      | zero => exact absurd hnone hfail
      | succ i => exact ih (Nat.lt_of_succ_lt_succ hi) (by rwa [Nat.add_right_comm, Nat.add_assoc]) _ _

/-- A request that succeeds has worked through all its statements. -/
theorem insertSnapshots_statements (h : insertSnapshots db chunkRows table rows = (.ok inserted, table'))
    (hk : k < (chunks chunkRows rows).length) : db.statement k = none := by
  by_contra hfail
  obtain ⟨e, worked, hchunks⟩ := insertChunks_fails hk (by rwa [Nat.zero_add]) table 0
  rw [insertSnapshots, hchunks] at h
  split at h <;> cases h

/-! ### The whole request -/

/-- What a request did that was answered with `response`. -/
structure Written (uuidCache : Cache) (snapshots : List TrafficSnapshotWrite) (old new : Table)
    (response : TrafficSnapshotWriteResponse) : Prop where
  kept : old.rows <+: new.rows
  /-- A row that is there now was there before, or its key was not and it is the first
  valid one of the request with that key. -/
  rows : ∀ row, row ∈ new.rows ↔ row ∈ old.rows ∨ (indexKey row ∉ old.rows.map indexKey ∧
    Table.lookup indexKey (validRows uuidCache snapshots) (indexKey row) = some row)
  inserted : response.inserted.toNat = new.rows.length - old.rows.length
  /-- The subtraction `valid - inserted` is one of natural numbers. -/
  no_underflow : response.inserted ≤ UInt64.ofNat (validRows uuidCache snapshots).length
  total : response.inserted.toNat + response.ignored.toNat + response.skipped.toNat = snapshots.length

/-- The answer to a request of `length` snapshots, `valid` of them valid. -/
def answer (length valid : Nat) (inserted : UInt64) : TrafficSnapshotWriteResponse :=
  ⟨inserted, UInt64.ofNat valid - inserted, UInt64.ofNat (length - valid)⟩

theorem lookup_rows (table : Table) {k : Int16 × String × Int64} {row : Row} :
    Table.lookup indexKey table.rows k = some row ↔ row ∈ table.rows ∧ indexKey row = k :=
  Table.lookup_eq_some_iff table.unique

theorem mem_insertMany (table : Table) (rows : List Row) (row : Row) :
    row ∈ (insertMany table rows).rows ↔ row ∈ table.rows ∨ (indexKey row ∉ table.rows.map indexKey ∧
      Table.lookup indexKey rows (indexKey row) = some row) := by
  have hlookup : Table.lookup indexKey (insertMany table rows).rows (indexKey row) = _ :=
    Table.lookup_foldl_insertNew table.rows rows (indexKey row)
  constructor
  · intro hmem
    have hfound := hlookup.symm.trans ((lookup_rows _).mpr ⟨hmem, rfl⟩)
    rcases Option.or_eq_some_iff.mp hfound with hthere | ⟨hnone, hfirst⟩
    · exact .inl ((lookup_rows table).mp hthere).1
    · exact .inr ⟨fun hkey => Table.lookup_ne_none hkey hnone, hfirst⟩
  · intro h
    refine ((lookup_rows _).mp (hlookup.trans ?_)).1
    rcases h with hmem | ⟨hkey, hfirst⟩
    · rw [(lookup_rows table).mpr ⟨hmem, rfl⟩, Option.some_or]
    · rw [Table.lookup_eq_none_of_notMem hkey, Option.none_or, hfirst]

/-- Inserting the same rows once more changes nothing. -/
theorem insertMany_again (table : Table) (rows : List Row) :
    insertMany (insertMany table rows) rows = insertMany table rows := by
  have hpresent : ∀ row ∈ rows, indexKey row ∈ (insertMany table rows).rows.map indexKey := by
    intro row hrow
    by_contra habsent
    have hnone : Table.lookup indexKey (insertMany table rows).rows (indexKey row) = none :=
      Table.lookup_eq_none_of_notMem habsent
    rw [insertMany, Table.lookup_foldl_insertNew, Option.or_eq_none_iff] at hnone
    exact Table.lookup_ne_none (List.mem_map_of_mem hrow) hnone.2
  have hrows := Table.foldl_insertNew_of_mem hpresent
  rw [insertMany]
  simp only [hrows]

theorem written_insertMany (hlen : snapshots.length ≤ 10000) (table : Table) :
    Written uuidCache snapshots table (insertMany table (validRows uuidCache snapshots))
      (answer snapshots.length (validRows uuidCache snapshots).length
        (UInt64.ofNat ((insertMany table (validRows uuidCache snapshots)).rows.length - table.rows.length))) := by
  have hvalid : (validRows uuidCache snapshots).length ≤ snapshots.length := List.length_filterMap_le ..
  have hnew : (insertMany table (validRows uuidCache snapshots)).rows.length ≤
      table.rows.length + (validRows uuidCache snapshots).length := Table.length_foldl_insertNew_le ..
  -- All counts are far below the range of `u64`.
  have hsmall : ∀ n, n ≤ 10000 → (UInt64.ofNat n).toNat = n := by
    intro n hn
    exact UInt64.toNat_ofNat_of_lt' (by simp only [UInt64.size]; omega)
  have hinserted := hsmall ((insertMany table (validRows uuidCache snapshots)).rows.length - table.rows.length)
    (by omega)
  have hvalidNat := hsmall (validRows uuidCache snapshots).length (by omega)
  have hle : UInt64.ofNat ((insertMany table (validRows uuidCache snapshots)).rows.length - table.rows.length) ≤
      UInt64.ofNat (validRows uuidCache snapshots).length := by
    rw [UInt64.le_iff_toNat_le, hinserted, hvalidNat]
    omega
  refine ⟨Table.isPrefix_foldl_insertNew .., mem_insertMany table _, hinserted, hle, ?_⟩
  simp only [answer]
  rw [UInt64.toNat_sub_of_le _ _ hle, hinserted, hvalidNat, hsmall _ (by omega)]
  omega

/-- What a request did that succeeds. An empty one is answered before anything is looked at. -/
theorem write_ok (hchunk : 0 < chunkRows) {response : TrafficSnapshotWriteResponse}
    (h : writeTrafficSnapshot server chunkRows token snapshots table = (.ok response, table')) :
    let valid := validRows (server.uuidCache.getD .empty) snapshots
    snapshots.length ≤ 10000 ∧ table' = insertMany table valid ∧
      response = answer snapshots.length valid.length
        (UInt64.ofNat ((insertMany table valid).rows.length - table.rows.length)) ∧
      ∀ db, server.db = .ok db → ∀ k < (chunks chunkRows valid).length, db.statement k = none := by
  rw [writeTrafficSnapshot] at h
  split at h
  next => cases h
  next tokenOrAuth _ =>
    split at h
    next hempty =>
      cases h
      rw [List.isEmpty_iff.mp hempty]
      refine ⟨by simp, rfl, ?_, by simp [validRows, chunks, chunksAux]⟩
      simp [validRows, insertMany, answer]
    next =>
      split at h
      next => cases h
      next uuidCache hcheck =>
        obtain ⟨hlen, hcache⟩ := checkRequest_ok hcheck
        rw [hcache, Option.getD_some]
        simp only [collectRows_spec, List.nil_append, UInt64.zero_add] at h
        split at h
        next => cases h
        next db hdb =>
          split at h
          next => cases h
          next inserted _ hinsert =>
            cases h
            obtain ⟨htable, hinserted⟩ := insertSnapshots_ok hchunk hinsert
            refine ⟨hlen, htable, by rw [answer, hinserted], ?_⟩
            intro db' hdb' k hk
            cases hdb.symm.trans hdb'
            exact insertSnapshots_statements hinsert hk

theorem write_error {e : NodegetError}
    (h : writeTrafficSnapshot server chunkRows token snapshots table = (.error e, table')) : table' = table := by
  rw [writeTrafficSnapshot] at h
  split at h
  next => exact (Prod.mk.inj h).2.symm
  next =>
    split at h
    next => cases h
    next =>
      split at h
      next => exact (Prod.mk.inj h).2.symm
      next =>
        dsimp only at h
        split at h
        next => exact (Prod.mk.inj h).2.symm
        next =>
          split at h
          next hinsert =>
            rw [← (Prod.mk.inj h).2]
            exact insertSnapshots_error hinsert
          next => cases h

/-- **Writing snapshots is atomic and idempotent**, however the rows are divided among
statements: a request fails and leaves the table alone, in particular when one of its
statements fails, or it has added the first row of every new key; and then the same
request, while the agents are the same, inserts nothing more. -/
theorem write_atomic_idempotent (server : Server) (chunkRows : Nat) (hchunk : 0 < chunkRows) (token : String)
    (snapshots : List TrafficSnapshotWrite) (table table' : Table)
    (result : Except NodegetError TrafficSnapshotWriteResponse)
    (h : writeTrafficSnapshot server chunkRows token snapshots table = (result, table')) :
    let agents := server.uuidCache.getD .empty
    (∀ e, result = .error e → table' = table) ∧
      (∀ db k, server.db = .ok db → k < (chunks chunkRows (validRows agents snapshots)).length →
        db.statement k ≠ none → (∃ e, result = .error e) ∧ table' = table) ∧
      ∀ response, result = .ok response →
        Written agents snapshots table table' response ∧
        ∀ server' chunkRows' response' table'', 0 < chunkRows' → server'.uuidCache = server.uuidCache →
          writeTrafficSnapshot server' chunkRows' token snapshots table' = (.ok response', table'') →
          response'.inserted = 0 ∧ table'' = table' := by
  intro agents
  refine ⟨?_, ?_, ?_⟩
  · intro e he
    exact write_error (he ▸ h)
  · intro db k hdb hk hfail
    cases result with
    | error e => exact ⟨⟨e, rfl⟩, write_error h⟩
    | ok response => exact absurd ((write_ok hchunk h).2.2.2 db hdb k hk) hfail
  · intro response hok
    obtain ⟨hlen, htable, hresponse, -⟩ := write_ok hchunk (hok ▸ h)
    refine ⟨by rw [htable, hresponse]; exact written_insertMany hlen table, ?_⟩
    intro server' chunkRows' response' table'' hchunk' hsame hagain
    obtain ⟨-, htable', hresponse', -⟩ := write_ok hchunk' hagain
    rw [hsame, htable, insertMany_again] at htable' hresponse'
    refine ⟨?_, htable'.trans htable.symm⟩
    rw [hresponse', Nat.sub_self]
    rfl

section Duplicates

def sampleServer : Server where
  checkTokenLimit := fun _ _ _ => .ok true
  now := .ok 1000
  uuidCache := some (Cache.empty.insert 7 1 false)
  db := .ok ⟨none, fun _ => none, none⟩

def sampleTable : Table := ⟨[⟨1, "eth0", 100, 5, 0⟩], List.nodup_singleton _⟩

/-- A stored key, a new one twice, in two statements of two rows, and an unknown agent. -/
def sampleRequest : List TrafficSnapshotWrite :=
  [⟨7, "eth0", 100, 9, 0⟩, ⟨7, "eth0", 400, 8, 0⟩, ⟨8, "eth0", 400, 1, 0⟩, ⟨7, "eth0", 400, 9, 0⟩]

theorem write_atomic_idempotent_duplicates :
    ∃ table', writeTrafficSnapshot sampleServer 2 "k:s" sampleRequest sampleTable = (.ok ⟨1, 2, 1⟩, table') ∧
      table'.rows = [⟨1, "eth0", 100, 5, 0⟩, ⟨1, "eth0", 400, 8, 0⟩] ∧
      Written (Cache.empty.insert 7 1 false) sampleRequest sampleTable table' ⟨1, 2, 1⟩ := by
  refine ⟨_, rfl, rfl, ?_⟩
  exact ((write_atomic_idempotent sampleServer 2 (by decide) "k:s" sampleRequest sampleTable _ _ rfl).2.2 _ rfl).1

end Duplicates

end NodeGet.TrafficSnapshot
