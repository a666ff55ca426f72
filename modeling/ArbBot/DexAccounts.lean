import ArbBot.Simulator.LockCount
import Mathlib.Data.List.Sort

/-!
# The pool registry

`load` walks the directories of `dex_dir` and their files in the order `read_dir` lists them and
pushes the keys of each pool file on two lists, which it sorts and dedups at the end. What it has
pushed is a list of additions (`load_eq`), and which key was added does not depend on the order
(`mem_additions`).

The directory is the data the calls on it return: an `Err` where a call fails. The logs and the
counters in them are left out.
-/

namespace ArbBot

open Sdk

/-! ## The directory -/

/-- What `read_dir` returns: the entries in the order it lists them. -/
abbrev ReadDir (α : Type) := Except String (List (Except String α))

structure PoolEntry where
  fileName : List UInt8
  /-- `read_to_string` of its path. -/
  content : Except String String

structure DexEntry where
  /-- `is_dir` of its `file_type`. -/
  isDir : Except String Bool
  pools : ReadDir PoolEntry

structure DexDir where
  present : Bool
  dexes : ReadDir DexEntry

structure PoolFile where
  market : Option String
  vaultA : Option String
  vaultB : Option String
  mintA : Option String
  mintB : Option String
  extra : List String
  deriving DecidableEq

structure DexPools where
  allAccounts : List Pubkey
  subscribeAccounts : List Pubkey

/-- `flatten` of a listing. -/
def listed {α : Type} (listing : List (Except String α)) : List α :=
  listing.filterMap Except.toOption

/-- `to_str` of an `OsStr`. -/
def toStr (name : List UInt8) : Option String := String.fromUTF8? ⟨name.toArray⟩

/-- `Path::extension`: what stands behind the last dot, unless nothing stands before it. -/
def extension (name : List UInt8) : Option (List UInt8) :=
  let after := (name.reverse.takeWhile (· ≠ '.'.toUInt8)).reverse
  if name.length ≤ after.length + 1 then none else some after

/-- Templates and what is not TOML. -/
def PoolEntry.skipped (entry : PoolEntry) : Bool :=
  ((toStr entry.fileName).getD "").startsWith '_' ||
    (extension entry.fileName).bind toStr ≠ some "toml"

/-! ## Loading -/

/-- `all` and `subs`. -/
structure Collected where
  all : List Pubkey
  subs : List Pubkey

def Collected.push (acc : Collected) (s : Option String) (isVault : Bool) : Collected :=
  match s with
  | none => acc
  | some s =>
      match parseBase58 s with
      | .ok pk =>
          { all := acc.all ++ [pk], subs := if isVault then acc.subs ++ [pk] else acc.subs }
      | .error _ => acc

section Load

-- `toml::from_str`
variable (parsePool : String → Except String PoolFile)

/-- The pushes of one pool. -/
def Collected.pushPool (acc : Collected) (pool : PoolFile) : Collected :=
  let acc := acc.push pool.market false
  let acc := acc.push pool.vaultA true
  let acc := acc.push pool.vaultB true
  let acc := acc.push pool.mintA false
  let acc := acc.push pool.mintB false
  pool.extra.foldl (fun acc addr => acc.push (some addr) false) acc

/-- The body of the inner loop. -/
def Collected.loadPool (acc : Collected) (entry : PoolEntry) : Collected :=
  if entry.skipped then acc
  else
    match entry.content with
    | .error _ => acc
    | .ok content =>
        match parsePool content with
        | .error _ => acc
        | .ok pool => acc.pushPool pool

/-- The body of the outer loop. -/
def Collected.loadDex (acc : Collected) (entry : DexEntry) : Collected :=
  if entry.isDir.toOption.getD false then
    match entry.pools with
    | .error _ => acc
    | .ok entries => (listed entries).foldl (Collected.loadPool parsePool) acc
  else acc

def load (dir : DexDir) : DexPools :=
  if dir.present then
    match dir.dexes with
    | .error _ => { allAccounts := [], subscribeAccounts := [] }
    | .ok entries =>
        let acc := (listed entries).foldl (Collected.loadDex parsePool) { all := [], subs := [] }
        { allAccounts := sortDedup acc.all, subscribeAccounts := sortDedup acc.subs }
  else { allAccounts := [], subscribeAccounts := [] }

end Load

/-! ## What was added -/

/-- A key and whether it is a vault. -/
abbrev Addition := Pubkey × Bool

def Collected.add (acc : Collected) (added : List Addition) : Collected where
  all := acc.all ++ added.map Prod.fst
  subs := acc.subs ++ (added.filter Prod.snd).map Prod.fst

@[simp] theorem Collected.add_nil (acc : Collected) : acc.add [] = acc := by
  simp [Collected.add]

theorem Collected.add_add (acc : Collected) (first second : List Addition) :
    (acc.add first).add second = acc.add (first ++ second) := by
  simp [Collected.add]

/-- A loop whose passes add adds what they add, in order. -/
theorem Collected.foldl_add {α : Type} {step : Collected → α → Collected}
    {adds : α → List Addition} (each : ∀ acc x, step acc x = acc.add (adds x))
    (items : List α) (acc : Collected) : items.foldl step acc = acc.add (items.flatMap adds) := by
  induction items generalizing acc with
  | nil => exact (acc.add_nil).symm
  | cons x items ih => rw [List.foldl_cons, each, ih, add_add, List.flatMap_cons]

/-- The fields of a pool and whether they name a vault. -/
def PoolFile.texts (pool : PoolFile) : List (Option String × Bool) :=
  [(pool.market, false), (pool.vaultA, true), (pool.vaultB, true), (pool.mintA, false),
    (pool.mintB, false)] ++ pool.extra.map fun addr => (some addr, false)

def keyOf (s : Option String) : Option Pubkey := s.bind fun s => (parseBase58 s).toOption

def additionsOf (field : Option String × Bool) : List Addition :=
  ((keyOf field.1).map fun pk => (pk, field.2)).toList

theorem Collected.push_eq (acc : Collected) (field : Option String × Bool) :
    acc.push field.1 field.2 = acc.add (additionsOf field) := by
  obtain ⟨s, isVault⟩ := field
  cases s with
  | none => exact (acc.add_nil).symm
  | some s =>
      simp only [push, additionsOf, keyOf, Option.bind_some]
      cases parseBase58 s with
      | error reason => exact (acc.add_nil).symm
      | ok pk => cases isVault <;> simp [add, Except.toOption]

theorem Collected.pushPool_eq (acc : Collected) (pool : PoolFile) :
    acc.pushPool pool = acc.add (pool.texts.flatMap additionsOf) := by
  have fields : pool.texts.foldl (fun acc field => acc.push field.1 field.2) acc =
      acc.add (pool.texts.flatMap additionsOf) := foldl_add push_eq pool.texts acc
  rw [← fields, PoolFile.texts, List.foldl_append, List.foldl_map]
  rfl

section Additions

variable (parsePool : String → Except String PoolFile)

/-- The pool of a file, where it is accepted. -/
def PoolEntry.pool? (entry : PoolEntry) : Option PoolFile :=
  if entry.skipped then none
  else entry.content.toOption.bind fun content => (parsePool content).toOption

def readEntries {α : Type} (listing : ReadDir α) : List α :=
  (listing.toOption.map listed).getD []

/-- The files of a directory, where it is read. -/
def DexEntry.files (entry : DexEntry) : List PoolEntry :=
  if entry.isDir.toOption.getD false then readEntries entry.pools else []

/-- The directories, where `dex_dir` is read. -/
def DexDir.entries (dir : DexDir) : List DexEntry :=
  if dir.present then readEntries dir.dexes else []

def PoolEntry.additions (entry : PoolEntry) : List Addition :=
  ((entry.pool? parsePool).map fun pool => pool.texts.flatMap additionsOf).getD []

def DexDir.additions (dir : DexDir) : List Addition :=
  dir.entries.flatMap fun dex => dex.files.flatMap (PoolEntry.additions parsePool)

theorem Collected.loadPool_eq (acc : Collected) (entry : PoolEntry) :
    acc.loadPool parsePool entry = acc.add (entry.additions parsePool) := by
  unfold loadPool PoolEntry.additions PoolEntry.pool?
  split
  · exact (acc.add_nil).symm
  · cases entry.content with
    | error reason => exact (acc.add_nil).symm
    | ok content =>
        simp only [Except.toOption, Option.bind_some]
        cases parsePool content with
        | error reason => exact (acc.add_nil).symm
        | ok pool => exact acc.pushPool_eq pool

theorem Collected.loadDex_eq (acc : Collected) (entry : DexEntry) :
    acc.loadDex parsePool entry =
      acc.add (entry.files.flatMap (PoolEntry.additions parsePool)) := by
  unfold loadDex DexEntry.files
  split
  · cases entry.pools with
    | error reason => exact (acc.add_nil).symm
    | ok entries => exact foldl_add (loadPool_eq parsePool) _ _
  · exact (acc.add_nil).symm

theorem load_eq (dir : DexDir) :
    load parsePool dir =
      { allAccounts := sortDedup ((dir.additions parsePool).map Prod.fst)
        subscribeAccounts :=
          sortDedup (((dir.additions parsePool).filter Prod.snd).map Prod.fst) } := by
  have none : sortDedup [] = [] := sortDedup_of_sorted List.Pairwise.nil
  unfold load DexDir.additions DexDir.entries
  split
  · cases dir.dexes with
    | error reason =>
        simp only [readEntries, Except.toOption, Option.map_none, Option.getD_none,
          List.flatMap_nil, List.map_nil, List.filter_nil, none]
    | ok entries =>
        have whole := Collected.foldl_add (Collected.loadDex_eq parsePool) (listed entries)
          { all := [], subs := [] }
        simp only [whole, Collected.add, List.nil_append, readEntries, Except.toOption,
          Option.map_some, Option.getD_some]
  · simp only [List.flatMap_nil, List.map_nil, List.filter_nil, none]

end Additions

/-! ## The accepted pools -/

/-- The fields a pool has. -/
def PoolFile.fields (pool : PoolFile) : List String :=
  [pool.market, pool.vaultA, pool.vaultB, pool.mintA, pool.mintB].filterMap id ++ pool.extra

def PoolFile.vaults (pool : PoolFile) : List String :=
  [pool.vaultA, pool.vaultB].filterMap id

theorem PoolFile.mem_fields {pool : PoolFile} {s : String} :
    s ∈ pool.fields ↔ ∃ isVault, (some s, isVault) ∈ pool.texts := by
  simp [fields, texts, or_comm, or_left_comm, eq_comm, exists_or]

theorem PoolFile.mem_vaults {pool : PoolFile} {s : String} :
    s ∈ pool.vaults ↔ (some s, true) ∈ pool.texts := by
  simp [vaults, texts, eq_comm]

section Accepted

variable {parsePool : String → Except String PoolFile} {dir : DexDir} {key : Pubkey}

/-- A file of a directory of `dex_dir` is this pool. -/
def DexDir.Accepted (parsePool : String → Except String PoolFile) (dir : DexDir)
    (pool : PoolFile) : Prop :=
  ∃ dex ∈ dir.entries, ∃ entry ∈ dex.files, entry.pool? parsePool = some pool

theorem mem_additionsOf {field : Option String × Bool} {isVault : Bool} :
    (key, isVault) ∈ additionsOf field ↔
      ∃ s, field = (some s, isVault) ∧ parseBase58 s = .ok key := by
  obtain ⟨s, vault⟩ := field
  cases s with
  | none => simp [additionsOf, keyOf]
  | some s =>
      cases parsed : parseBase58 s with
      | error reason => simp [additionsOf, keyOf, parsed, Except.toOption]
      | ok pk => simp [additionsOf, keyOf, parsed, Except.toOption, eq_comm, and_comm]

theorem mem_additions {isVault : Bool} :
    (key, isVault) ∈ dir.additions parsePool ↔
      ∃ pool, dir.Accepted parsePool pool ∧
        ∃ s, (some s, isVault) ∈ pool.texts ∧ parseBase58 s = .ok key := by
  unfold DexDir.additions
  simp only [List.mem_flatMap]
  constructor
  · intro added
    obtain ⟨dex, dexMem, entry, entryMem, added⟩ := added
    unfold PoolEntry.additions at added
    cases accepted : entry.pool? parsePool with
    | none => simp [accepted] at added
    | some pool =>
        rw [accepted, Option.map_some, Option.getD_some, List.mem_flatMap] at added
        obtain ⟨field, fieldMem, added⟩ := added
        obtain ⟨s, rfl, parsed⟩ := mem_additionsOf.mp added
        exact ⟨pool, ⟨dex, dexMem, entry, entryMem, accepted⟩, s, fieldMem, parsed⟩
  · intro held
    obtain ⟨pool, ⟨dex, dexMem, entry, entryMem, accepted⟩, s, fieldMem, parsed⟩ := held
    refine ⟨dex, dexMem, entry, entryMem, ?_⟩
    rw [PoolEntry.additions, accepted, Option.map_some, Option.getD_some, List.mem_flatMap]
    exact ⟨(some s, isVault), fieldMem, mem_additionsOf.mpr ⟨s, rfl, parsed⟩⟩

theorem mem_allAccounts :
    key ∈ (load parsePool dir).allAccounts ↔
      ∃ pool, dir.Accepted parsePool pool ∧ ∃ s ∈ pool.fields, parseBase58 s = .ok key := by
  rw [load_eq, mem_sortDedup, List.mem_map]
  constructor
  · intro added
    obtain ⟨⟨pk, isVault⟩, added, rfl⟩ := added
    obtain ⟨pool, accepted, s, fieldMem, parsed⟩ := mem_additions.mp added
    exact ⟨pool, accepted, s, PoolFile.mem_fields.mpr ⟨isVault, fieldMem⟩, parsed⟩
  · intro held
    obtain ⟨pool, accepted, s, fieldMem, parsed⟩ := held
    obtain ⟨isVault, fieldMem⟩ := PoolFile.mem_fields.mp fieldMem
    exact ⟨(key, isVault), mem_additions.mpr ⟨pool, accepted, s, fieldMem, parsed⟩, rfl⟩

theorem mem_subscribeAccounts :
    key ∈ (load parsePool dir).subscribeAccounts ↔
      ∃ pool, dir.Accepted parsePool pool ∧ ∃ s ∈ pool.vaults, parseBase58 s = .ok key := by
  rw [load_eq, mem_sortDedup, List.mem_map]
  constructor
  · intro added
    obtain ⟨⟨pk, isVault⟩, added, rfl⟩ := added
    obtain ⟨added, vault⟩ := List.mem_filter.mp added
    obtain rfl : isVault = true := vault
    obtain ⟨pool, accepted, s, fieldMem, parsed⟩ := mem_additions.mp added
    exact ⟨pool, accepted, s, PoolFile.mem_vaults.mpr fieldMem, parsed⟩
  · intro held
    obtain ⟨pool, accepted, s, fieldMem, parsed⟩ := held
    have added := mem_additions.mpr ⟨pool, accepted, s, PoolFile.mem_vaults.mp fieldMem, parsed⟩
    exact ⟨(key, true), List.mem_filter.mpr ⟨added, rfl⟩, rfl⟩

/-- What is subscribed to is also fetched. -/
theorem subscribeAccounts_subset (held : key ∈ (load parsePool dir).subscribeAccounts) :
    key ∈ (load parsePool dir).allAccounts := by
  obtain ⟨pool, accepted, s, vault, parsed⟩ := mem_subscribeAccounts.mp held
  have field := PoolFile.mem_fields.mpr ⟨true, PoolFile.mem_vaults.mp vault⟩
  exact mem_allAccounts.mpr ⟨pool, accepted, s, field, parsed⟩

theorem allAccounts_pairwise :
    (load parsePool dir).allAccounts.Pairwise fun a b => a.bytes < b.bytes := by
  rw [load_eq]
  exact sortDedup_pairwise _

theorem subscribeAccounts_pairwise :
    (load parsePool dir).subscribeAccounts.Pairwise fun a b => a.bytes < b.bytes := by
  rw [load_eq]
  exact sortDedup_pairwise _

end Accepted

/-! ## Other orders -/

/-- Entries of which the same calls fail and the others return what `same` relates. -/
inductive SameEntry {α : Type} (same : α → α → Prop) : Except String α → Except String α → Prop
  | error (reason : String) : SameEntry same (.error reason) (.error reason)
  | ok {x y : α} (related : same x y) : SameEntry same (.ok x) (.ok y)

/-- The same entries, listed in any two orders. -/
inductive Relisted {α : Type} (same : α → α → Prop) : ReadDir α → ReadDir α → Prop
  | error (reason : String) : Relisted same (.error reason) (.error reason)
  | ok {l mid l' : List (Except String α)} (entries : List.Forall₂ (SameEntry same) l mid)
      (order : mid.Perm l') : Relisted same (.ok l) (.ok l')

/-- Any two orders of the files of a directory. -/
structure DexEntry.Reordered (dex dex' : DexEntry) : Prop where
  isDir : dex'.isDir = dex.isDir
  pools : Relisted Eq dex.pools dex'.pools

/-- Any two orders of the directories and of the files in each. -/
structure DexDir.Reordered (dir dir' : DexDir) : Prop where
  present : dir'.present = dir.present
  dexes : Relisted DexEntry.Reordered dir.dexes dir'.dexes

section Orders

variable {α : Type} {same : α → α → Prop}

theorem mem_listed {x : α} {l : List (Except String α)} : x ∈ listed l ↔ Except.ok x ∈ l := by
  rw [listed, List.mem_filterMap]
  constructor
  · intro held
    obtain ⟨entry, mem, read⟩ := held
    cases entry with
    | error reason => cases read
    | ok y => cases read; exact mem
  · intro mem
    exact ⟨.ok x, mem, rfl⟩

theorem exists_of_forall₂ {l l' : List (Except String α)}
    (entries : List.Forall₂ (SameEntry same) l l') {x : α} (mem : Except.ok x ∈ l) :
    ∃ y, Except.ok y ∈ l' ∧ same x y := by
  induction entries with
  | nil => cases mem
  | @cons a b l l' first rest ih =>
      rcases List.mem_cons.mp mem with rfl | mem
      · cases first with
        | @ok x y related => exact ⟨y, List.mem_cons_self, related⟩
      · obtain ⟨y, mem, related⟩ := ih mem
        exact ⟨y, List.mem_cons_of_mem b mem, related⟩

theorem exists_of_forall₂_back {l l' : List (Except String α)}
    (entries : List.Forall₂ (SameEntry same) l l') {y : α} (mem : Except.ok y ∈ l') :
    ∃ x, Except.ok x ∈ l ∧ same x y := by
  have turned : List.Forall₂ (SameEntry fun y x => same x y) l' l := by
    refine entries.flip.imp ?_
    intro b a entry
    cases entry with
    | error reason => exact .error reason
    | ok related => exact .ok related
  exact exists_of_forall₂ turned mem

theorem Relisted.forth {listing listing' : ReadDir α} (relisted : Relisted same listing listing')
    {x : α} (mem : x ∈ readEntries listing) : ∃ y ∈ readEntries listing', same x y := by
  cases relisted with
  | error reason => cases mem
  | ok entries order =>
      obtain ⟨y, found, related⟩ := exists_of_forall₂ entries (mem_listed.mp mem)
      exact ⟨y, mem_listed.mpr (order.mem_iff.mp found), related⟩

theorem Relisted.back {listing listing' : ReadDir α} (relisted : Relisted same listing listing')
    {y : α} (mem : y ∈ readEntries listing') : ∃ x ∈ readEntries listing, same x y := by
  cases relisted with
  | error reason => cases mem
  | ok entries order =>
      obtain ⟨x, found, related⟩ :=
        exists_of_forall₂_back entries (order.mem_iff.mpr (mem_listed.mp mem))
      exact ⟨x, mem_listed.mpr found, related⟩

end Orders

section Registry

variable {parsePool : String → Except String PoolFile} {dir dir' : DexDir}

theorem DexEntry.Reordered.mem_files {dex dex' : DexEntry} (reordered : dex.Reordered dex')
    {entry : PoolEntry} : entry ∈ dex'.files ↔ entry ∈ dex.files := by
  unfold DexEntry.files
  rw [reordered.isDir]
  split
  · constructor
    · intro mem
      obtain ⟨entry', mem, same⟩ := reordered.pools.back mem
      exact same ▸ mem
    · intro mem
      obtain ⟨entry', mem, same⟩ := reordered.pools.forth mem
      exact same ▸ mem
  · rfl

/-- The order does not decide what is accepted. -/
theorem DexDir.Reordered.accepted_iff (reordered : dir.Reordered dir') {pool : PoolFile} :
    dir'.Accepted parsePool pool ↔ dir.Accepted parsePool pool := by
  unfold DexDir.Accepted DexDir.entries
  rw [reordered.present]
  split
  · constructor
    · intro accepted
      obtain ⟨dex', dexMem, entry, entryMem, accepted⟩ := accepted
      obtain ⟨dex, dexMem, same⟩ := reordered.dexes.back dexMem
      exact ⟨dex, dexMem, entry, same.mem_files.mp entryMem, accepted⟩
    · intro accepted
      obtain ⟨dex, dexMem, entry, entryMem, accepted⟩ := accepted
      obtain ⟨dex', dexMem, same⟩ := reordered.dexes.forth dexMem
      exact ⟨dex', dexMem, entry, same.mem_files.mpr entryMem, accepted⟩
  · simp only [List.not_mem_nil, false_and, exists_false]

/-- Strictly ascending lists of the same keys are the same. -/
theorem eq_of_ascending {keys keys' : List Pubkey}
    (ascending : keys.Pairwise fun a b => a.bytes < b.bytes)
    (ascending' : keys'.Pairwise fun a b => a.bytes < b.bytes)
    (same : ∀ key, key ∈ keys ↔ key ∈ keys') : keys = keys' := by
  have irrefl : Std.Irrefl fun a b : Pubkey => a.bytes < b.bytes :=
    ⟨fun a below => List.lt_irrefl _ below⟩
  have antisymm : Std.Antisymm fun a b : Pubkey => a.bytes < b.bytes :=
    ⟨fun a b below above => absurd (List.lt_trans below above) (List.lt_irrefl _)⟩
  exact ascending.eq_of_mem_iff ascending' same

theorem DexDir.Reordered.load_eq (reordered : dir.Reordered dir') :
    load parsePool dir' = load parsePool dir := by
  have all : (load parsePool dir').allAccounts = (load parsePool dir).allAccounts := by
    refine eq_of_ascending allAccounts_pairwise allAccounts_pairwise ?_
    intro key
    simp only [mem_allAccounts, reordered.accepted_iff]
  have subs : (load parsePool dir').subscribeAccounts =
      (load parsePool dir).subscribeAccounts := by
    refine eq_of_ascending subscribeAccounts_pairwise subscribeAccounts_pairwise ?_
    intro key
    simp only [mem_subscribeAccounts, reordered.accepted_iff]
  cases loaded' : load parsePool dir'
  cases loaded : load parsePool dir
  rw [loaded, loaded'] at all subs
  rw [DexPools.mk.injEq]
  exact ⟨all, subs⟩

/-- The registry depends on the directory only, not on the order it is listed in: the valid keys
of all fields of the accepted pools, ascending, and among them those of the vaults. -/
theorem load_registry (parsePool : String → Except String PoolFile) (dir : DexDir) :
    (∀ dir', dir.Reordered dir' → load parsePool dir' = load parsePool dir) ∧
      (load parsePool dir).allAccounts.Pairwise (fun a b => a.bytes < b.bytes) ∧
      (∀ key, key ∈ (load parsePool dir).allAccounts ↔
        ∃ pool, dir.Accepted parsePool pool ∧ ∃ s ∈ pool.fields, parseBase58 s = .ok key) ∧
      (load parsePool dir).subscribeAccounts.Pairwise (fun a b => a.bytes < b.bytes) ∧
      (∀ key, key ∈ (load parsePool dir).subscribeAccounts ↔
        ∃ pool, dir.Accepted parsePool pool ∧ ∃ s ∈ pool.vaults, parseBase58 s = .ok key) ∧
      ∀ key ∈ (load parsePool dir).subscribeAccounts, key ∈ (load parsePool dir).allAccounts := by
  refine ⟨?_, allAccounts_pairwise, ?_, subscribeAccounts_pairwise, ?_, ?_⟩
  · intro dir' reordered
    exact reordered.load_eq
  · intro key
    exact mem_allAccounts
  · intro key
    exact mem_subscribeAccounts
  · intro key held
    exact subscribeAccounts_subset held

/-! ### A pool between a failed entry and a template -/

def wsolText : String := "So11111111111111111111111111111111111111112"

def vaultToml : String := "vault_a = \"So11111111111111111111111111111111111111112\""

def vaultPool : PoolFile where
  market := none
  vaultA := some wsolText
  vaultB := none
  mintA := none
  mintB := none
  extra := []

def parseVault (content : String) : Except String PoolFile :=
  if content = vaultToml then .ok vaultPool else .error "invalid pool TOML"

/-- `a.toml`. -/
def vaultEntry : PoolEntry where
  fileName := [97, 46, 116, 111, 109, 108]
  content := .ok vaultToml

/-- `_.toml`. -/
def templateEntry : PoolEntry where
  fileName := [95, 46, 116, 111, 109, 108]
  content := .ok vaultToml

example : vaultEntry.skipped = false := by decide
example : templateEntry.skipped = true := by decide

def dexOf (entries : List PoolEntry) : DexEntry where
  isDir := .ok true
  pools := .ok (entries.map .ok)

def failedFirst : DexDir where
  present := true
  dexes := .ok [.error "Stale file handle", .ok (dexOf [templateEntry, vaultEntry])]

def failedLast : DexDir where
  present := true
  dexes := .ok [.ok (dexOf [vaultEntry, templateEntry]), .error "Stale file handle"]

theorem failedLast_reordered : failedFirst.Reordered failedLast where
  present := rfl
  dexes := by
    have files :
        (dexOf [templateEntry, vaultEntry]).Reordered (dexOf [vaultEntry, templateEntry]) :=
      ⟨rfl, .ok (.cons (.ok rfl) (.cons (.ok rfl) .nil)) (List.Perm.swap _ _ _)⟩
    exact .ok (.cons (.error _) (.cons (.ok files) .nil)) (List.Perm.swap _ _ _)

theorem load_registry_failedFirst :
    load parseVault failedLast = load parseVault failedFirst ∧
      wrappedSol ∈ (load parseVault failedFirst).subscribeAccounts := by
  obtain ⟨orders, -, -, -, vaults, -⟩ := load_registry parseVault failedFirst
  refine ⟨orders failedLast failedLast_reordered, (vaults wrappedSol).mpr ?_⟩
  have accepted : failedFirst.Accepted parseVault vaultPool :=
    ⟨dexOf [templateEntry, vaultEntry], List.mem_cons_self, vaultEntry,
      List.mem_cons_of_mem _ List.mem_cons_self, by decide⟩
  exact ⟨vaultPool, accepted, wsolText, by decide, by decide⟩

end Registry

end ArbBot
