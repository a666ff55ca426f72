import ArbBot.Foundation.Replace
import ArbBot.Persistence.HopFiles
import ArbBot.RouteDisk

/-!
# Flushes that do not finish

`flush_to_disk` replaces `routes.json` and then one file per DEX, each through its
`.tmp` file. `Flusher` is the process between two steps on the disk; it may crash at
any of them and start over with whatever is on the disk.

`flush_crashSafe`: a file in place is always the whole serialization of one flush, and
the loaders do not see the `.tmp` files that are left over.
-/

namespace ArbBot

open Foundation

/-! ## Paths -/

def baseDir : String := "/root/c/cache"

def routesPath : String := baseDir ++ "/routes.json"

/-- A file in the directory of the hops. -/
def hopPath (name : String) : String := baseDir ++ "/hops" ++ "/" ++ name

def tmpPath (path : String) : String := path ++ ".tmp"

def isTmp (path : String) : Bool := decide (".tmp".toList <:+ path.toList)

/-- The files the loaders read after a flush. -/
def FinalPath (path : String) : Prop :=
  path = routesPath ∨ ∃ dex : DexKind, path = hopPath dex.fileName

/-! ## Flushing -/

/-- `serde_json` on the two file types, with the UTF-8 check of `read_to_string`. -/
structure Serde where
  routes : RouteFile → Option (List UInt8)
  hops : DexHopFile → Option (List UInt8)
  readRoutes : List UInt8 → Option RouteFile
  readHops : List UInt8 → Option DexHopFile

/-- The two parts of `flush_to_disk`. Each takes the lock and copies the store first. -/
inductive Flush where
  | routes (g : StoreInner) (file : RouteFile)
  | hops (g : StoreInner) (files : List (String × DexHopFile))

namespace Flush

/-- What is flushed is a copy of the store. -/
def Valid : Flush → Prop
  | .routes g file => Snapshot g file
  | .hops g files => HopFlush g files

/-- The files to replace: those that serialize. -/
def jobs (serde : Serde) : Flush → List (Replace.Job String UInt8)
  | .routes _ file => ((serde.routes file).map (Replace.Job.mk routesPath)).toList
  | .hops _ files => files.filterMap fun file =>
      (serde.hops file.2).map (Replace.Job.mk (hopPath file.1))

end Flush

/-- Which part of `flush_to_disk` ran last. -/
inductive FlushStage where
  | idle
  | routes
  | hops
  deriving DecidableEq

namespace Flush

def stage : Flush → FlushStage
  | .routes _ _ => .routes
  | .hops _ _ => .hops

/-- The hops follow the routes; the routes start a call. -/
def Follows : Flush → FlushStage → Prop
  | .routes _ _, before => before ≠ .routes
  | .hops _ _, before => before = .routes

end Flush

/-- The flush task on its disk, with the flushes it made. -/
structure Flusher where
  writer : Replace.Writer String UInt8
  stage : FlushStage
  flushes : List Flush

inductive FlushEvent where
  | flush (part : Flush)
  | io
  | crash

inductive FlusherStep (serde : Serde) : Flusher → FlushEvent → Flusher → Prop
  | flush {f : Flusher} {part : Flush} :
    f.writer.todo = [] → part.Follows f.stage → part.Valid →
    FlusherStep serde f (.flush part)
      ⟨⟨f.writer.disk, part.jobs serde, false⟩, part.stage, f.flushes ++ [part]⟩
  | io {f : Flusher} {w : Replace.Writer String UInt8} :
    Replace.IoStep tmpPath f.writer w → FlusherStep serde f .io { f with writer := w }
  | crash {f : Flusher} {w : Replace.Writer String UInt8} :
    Replace.Crash tmpPath f.writer w →
    FlusherStep serde f .crash ⟨w, .idle, f.flushes⟩

/-- Before the first flush nothing is in place; other files may lie around. -/
def flushMachine (serde : Serde) : Machine Flusher FlushEvent where
  start f := f.writer.todo = [] ∧ f.writer.ready = false ∧ f.stage = .idle ∧ f.flushes = [] ∧
    ∀ path, FinalPath path → f.writer.disk path = none
  step := FlusherStep serde

/-! ## Loading -/

/-- `load_routes_from_disk`. -/
def loadRoutesAt (serde : Serde) (disk : String → Option (List UInt8)) (g : StoreInner) :
    Nat × StoreInner :=
  match (disk routesPath).bind serde.readRoutes with
  | some file => loadRoutesFromDisk g file
  | none => (0, g)

/-- The entries of the directory of the hops. -/
def hopEntries (serde : Serde) (disk : String → Option (List UInt8)) (names : List String) :
    List HopEntry :=
  names.map fun name => ⟨name, (disk (hopPath name)).bind serde.readHops⟩

/-- `load_from_disk`, where the directory lists these names. -/
def loadHopsAt (serde : Serde) (disk : String → Option (List UInt8)) (names : List String)
    (g : StoreInner) : Nat × StoreInner :=
  loadFromDisk g (hopEntries serde disk names)

/-- The disk with all temporary files removed. -/
def withoutTmp (disk : String → Option (List UInt8)) : String → Option (List UInt8) :=
  fun path => if isTmp path then none else disk path

/-! ## Temporary files -/

theorem isTmp_tmpPath (path : String) : isTmp (tmpPath path) = true := by
  rw [isTmp, decide_eq_true_eq, tmpPath, String.toList_append]
  exact List.suffix_append _ _

theorem FinalPath.not_isTmp {path : String} (final : FinalPath path) : isTmp path = false := by
  rcases final with rfl | ⟨dex, rfl⟩
  · decide
  · cases dex <;> decide

/-- No temporary file is a final one. -/
theorem finalPath_ne_tmpPath {path path' : String} (final : FinalPath path) :
    path ≠ tmpPath path' := by
  rintro rfl
  have temporary := isTmp_tmpPath path'
  rw [final.not_isTmp] at temporary
  cases temporary

/-- A path ends in `.tmp` just when its last component does. -/
theorem isTmp_of_hopPath {name : String} (temporary : isTmp (hopPath name) = true) :
    isTmp name = true := by
  rw [isTmp, decide_eq_true_eq] at temporary ⊢
  have split : (hopPath name).toList = (baseDir ++ "/hops").toList ++ '/' :: name.toList := by
    simp [hopPath, String.toList_append]
  have tail : '/' :: name.toList <:+ (hopPath name).toList := by
    rw [split]
    exact List.suffix_append _ _
  have plain : '/' ∉ ".tmp".toList := by decide
  rcases List.suffix_or_suffix_of_suffix temporary tail with short | long
  · rcases List.suffix_cons_iff.mp short with same | inName
    · exact (plain (by rw [same]; exact List.mem_cons_self)).elim
    · exact inName
  · exact (plain (long.subset List.mem_cons_self)).elim

/-- A `.tmp` file never has the extension a load asks for. -/
theorem fileExtension_of_isTmp {name : String} (temporary : isTmp name = true) :
    fileExtension name ≠ some "json" := by
  rw [isTmp, decide_eq_true_eq] at temporary
  obtain ⟨stem, shape⟩ := temporary
  have shape : name = String.ofList stem ++ "." ++ "tmp" := by
    rw [← String.toList_inj, ← shape]
    simp [String.toList_append]
  by_cases unnamed : String.ofList stem = ""
  · rw [shape, unnamed]
    decide
  · rw [shape, fileExtension_append unnamed (by decide) (by decide)]
    decide

theorem loadFromDisk_congr {entries entries' : List HopEntry} (g : StoreInner)
    (same : entries.filterMap HopEntry.read = entries'.filterMap HopEntry.read) :
    loadFromDisk g entries = loadFromDisk g entries' := by
  unfold loadFromDisk
  rw [foldl_loadEntry, foldl_loadEntry]
  unfold readHops
  rw [same]

/-- A `.tmp` entry is not read, and the content of any other one is still there. -/
theorem read_withoutTmp (serde : Serde) (disk : String → Option (List UInt8)) (name : String) :
    HopEntry.read ⟨name, (disk (hopPath name)).bind serde.readHops⟩ =
      if isTmp name then none
      else HopEntry.read ⟨name, (withoutTmp disk (hopPath name)).bind serde.readHops⟩ := by
  by_cases temporary : isTmp name = true
  · rw [if_pos temporary, HopEntry.read, if_neg (fileExtension_of_isTmp temporary)]
  · have kept : withoutTmp disk (hopPath name) = disk (hopPath name) :=
      if_neg fun inPath => temporary (isTmp_of_hopPath inPath)
    rw [if_neg temporary, kept]

/-- The loaders see neither the content nor the presence of a `.tmp` file. -/
theorem loads_withoutTmp (serde : Serde) (disk : String → Option (List UInt8))
    (names : List String) (g : StoreInner) :
    loadRoutesAt serde disk g = loadRoutesAt serde (withoutTmp disk) g ∧
      loadHopsAt serde disk names g =
        loadHopsAt serde (withoutTmp disk) (names.filter (!isTmp ·)) g := by
  constructor
  · have kept : withoutTmp disk routesPath = disk routesPath := by
      rw [withoutTmp, FinalPath.not_isTmp (Or.inl rfl)]
      rfl
    rw [loadRoutesAt, loadRoutesAt, kept]
  · apply loadFromDisk_congr g
    unfold hopEntries
    rw [List.filterMap_map, List.filterMap_map, List.filterMap_filter]
    apply List.filterMap_congr
    intro name _
    rw [Function.comp_apply, read_withoutTmp]
    cases isTmp name <;> rfl

/-! ## Files in place are complete -/

/-- The content is the serialization one of the flushes made for the path. -/
def Made (serde : Serde) (flushes : List Flush) (path : String) (content : List UInt8) : Prop :=
  ∃ part ∈ flushes, part.Valid ∧ ⟨path, content⟩ ∈ part.jobs serde

/-- A flush replaces `routes.json` or files of DEXes, each with a whole serialization. -/
theorem Flush.job_cases {serde : Serde} {part : Flush} (valid : part.Valid)
    {job : Replace.Job String UInt8} (member : job ∈ part.jobs serde) :
    (∃ g file, part = .routes g file ∧ job.path = routesPath ∧
      serde.routes file = some job.content) ∨
    ∃ (g : StoreInner) (files : List (String × DexHopFile)) (dex : DexKind) (file : DexHopFile),
      part = .hops g files ∧ (dex.fileName, file) ∈ files ∧ job.path = hopPath dex.fileName ∧
        serde.hops file = some job.content := by
  cases part with
  | routes g file =>
      rw [Flush.jobs, Option.mem_toList, Option.map_eq_some_iff] at member
      obtain ⟨json, serialized, rfl⟩ := member
      exact Or.inl ⟨g, file, rfl, rfl, serialized⟩
  | hops g files =>
      obtain ⟨⟨name, file⟩, fileMember, job'⟩ := List.mem_filterMap.mp member
      obtain ⟨json, serialized, rfl⟩ := Option.map_eq_some_iff.mp job'
      obtain ⟨dex, rfl⟩ := (HopFlush.files_spec valid).1 (name, file) fileMember
      exact Or.inr ⟨g, files, dex, file, rfl, fileMember, rfl, serialized⟩

theorem Flush.finalPath_of_job {serde : Serde} {part : Flush} (valid : part.Valid)
    {job : Replace.Job String UInt8} (member : job ∈ part.jobs serde) : FinalPath job.path := by
  rcases Flush.job_cases valid member with ⟨_, _, _, path, _⟩ | ⟨_, _, dex, _, _, _, path, _⟩
  · exact Or.inl path
  · exact Or.inr ⟨dex, path⟩

theorem Made.mono {serde : Serde} {flushes : List Flush} {path : String} {content : List UInt8}
    (made : Made serde flushes path content) (part : Flush) :
    Made serde (flushes ++ [part]) path content := by
  obtain ⟨earlier, member, valid, written⟩ := made
  exact ⟨earlier, List.mem_append_left _ member, valid, written⟩

/-- What is in place, and what is to be put there, was made by the flushes so far. -/
def Flusher.Sound (serde : Serde) (f : Flusher) : Prop :=
  Replace.Sound tmpPath FinalPath (Made serde f.flushes) f.writer

theorem sound_of_step {serde : Serde} {f f' : Flusher} {event : FlushEvent}
    (sound : f.Sound serde) (step : FlusherStep serde f event f') : f'.Sound serde := by
  cases step with
  | @flush part idle follows valid =>
      refine (sound.mono fun path content made => made.mono part).begin fun job member => ?_
      have latest : part ∈ f.flushes ++ [part] := List.mem_append_right _ (by simp)
      exact ⟨Flush.finalPath_of_job valid member, part, latest, valid, member⟩
  | io moved => exact Replace.Sound.io (fun _ _ final _ => finalPath_ne_tmpPath final) sound moved
  | crash ended =>
      exact Replace.Sound.crash (fun _ _ final _ => finalPath_ne_tmpPath final) sound ended

theorem reach_sound {serde : Serde} {f : Flusher}
    (reached : (flushMachine serde).Reach Machine.anyStep f) : f.Sound serde := by
  refine reached.invariant (Flusher.Sound serde) ?_ ?_
  · intro f given
    rcases given with ⟨idle, notReady, -, -, absent⟩
    refine ⟨fun path content final found => ?_, ?_, ?_⟩
    · rw [absent path final] at found
      cases found
    · rw [idle]
      simp
    · rw [notReady]
      simp
  · exact fun f event f' sound _ step => sound_of_step sound step

/-! ## What a loader finds -/

theorem routesPath_ne_hopPath (dex : DexKind) : routesPath ≠ hopPath dex.fileName := by
  cases dex <;> decide

theorem hopPath_inj {name name' : String} (same : hopPath name = hopPath name') :
    name = name' := by
  have chars := congrArg String.toList same
  simp only [hopPath, String.toList_append, List.append_cancel_left_eq] at chars
  exact String.toList_inj.mp chars

theorem Made.routes {serde : Serde} {flushes : List Flush} {content : List UInt8}
    (made : Made serde flushes routesPath content) :
    ∃ g file, Flush.routes g file ∈ flushes ∧ Snapshot g file ∧
      serde.routes file = some content := by
  obtain ⟨part, member, valid, written⟩ := made
  rcases Flush.job_cases valid written with
    ⟨g, file, rfl, -, serialized⟩ | ⟨g, files, dex, file, -, -, path, -⟩
  · exact ⟨g, file, member, valid, serialized⟩
  · exact (routesPath_ne_hopPath dex path).elim

theorem Made.hops {serde : Serde} {flushes : List Flush} {dex : DexKind}
    {content : List UInt8} (made : Made serde flushes (hopPath dex.fileName) content) :
    ∃ g files file, Flush.hops g files ∈ flushes ∧ HopFlush g files ∧
      (dex.fileName, file) ∈ files ∧ serde.hops file = some content := by
  obtain ⟨part, member, valid, written⟩ := made
  rcases Flush.job_cases valid written with
    ⟨g, file, -, path, -⟩ | ⟨g, files, dex', file, rfl, fileMember, path, serialized⟩
  · exact (routesPath_ne_hopPath dex path.symm).elim
  · rw [← hopPath_inj path] at fileMember
    exact ⟨g, files, file, member, valid, fileMember, serialized⟩

/-- **An interrupted flush harms no file.** After any run of flushes, failures and
crashes, `routes.json` and the file of every DEX are absent or the whole serialization
of one flush, and the loaders do not see what is left in `.tmp` files. -/
theorem flush_crashSafe {serde : Serde} {f : Flusher}
    (reached : (flushMachine serde).Reach Machine.anyStep f) :
    (∀ content, f.writer.disk routesPath = some content →
      ∃ g file, Flush.routes g file ∈ f.flushes ∧ Snapshot g file ∧
        serde.routes file = some content) ∧
    (∀ (dex : DexKind) (content : List UInt8),
      f.writer.disk (hopPath dex.fileName) = some content →
      ∃ g files file, Flush.hops g files ∈ f.flushes ∧ HopFlush g files ∧
        (dex.fileName, file) ∈ files ∧ serde.hops file = some content) ∧
    ∀ (g : StoreInner) (names : List String),
      loadRoutesAt serde f.writer.disk g = loadRoutesAt serde (withoutTmp f.writer.disk) g ∧
      loadHopsAt serde f.writer.disk names g =
        loadHopsAt serde (withoutTmp f.writer.disk) (names.filter (!isTmp ·)) g := by
  have sound := reach_sound reached
  refine ⟨fun content found => ?_, fun dex content found => ?_, fun g names => ?_⟩
  · exact (sound.files _ _ (Or.inl rfl) found).routes
  · exact (sound.files _ _ (Or.inr ⟨dex, rfl⟩) found).hops
  · exact loads_withoutTmp serde f.writer.disk names g

/-! ## A torn second flush -/

/-- `routes.json` of an empty store. -/
def emptyRoutes : List UInt8 :=
  asBytes "\x7b\"schema_version\":1,\"routes\":[],\"hop_pairs\":\x7b\x7d\x7d"

/-- `serde_json` as far as the files of an empty store need it. -/
def emptySerde : Serde where
  routes file := if file.routes.isEmpty && file.hopPairs.isEmpty then some emptyRoutes else none
  hops _ := none
  readRoutes bytes := if bytes = emptyRoutes then some ⟨1, [], ∅⟩ else none
  readHops _ := none

theorem jobs_emptySerde : (Flush.routes .new (flushRoutes .new)).jobs emptySerde =
    [⟨routesPath, emptyRoutes⟩] := by
  have noRoutes : (flushRoutes .new).routes.isEmpty = true := by
    simp [flushRoutes, StoreInner.new]
  have noPairs : (flushRoutes .new).hopPairs.isEmpty = true := by
    simp [flushRoutes, StoreInner.new]
  simp only [Flush.jobs, emptySerde, noRoutes, noPairs, Bool.and_self, if_true, Option.map_some,
    Option.toList_some]

/-- An idle process of an empty store starts a flush. -/
theorem reach_emptyFlush {f : Flusher}
    (reached : (flushMachine emptySerde).Reach Machine.anyStep f)
    (idle : f.writer.todo = []) (follows : f.stage ≠ .routes) :
    (flushMachine emptySerde).Reach Machine.anyStep
      ⟨⟨f.writer.disk, [⟨routesPath, emptyRoutes⟩], false⟩, .routes,
        f.flushes ++ [.routes .new (flushRoutes .new)]⟩ := by
  rw [← jobs_emptySerde]
  exact reached.step trivial (.flush idle follows (snapshot_flushRoutes .new))

/-- A flush puts `routes.json` in place, and the process ends before the hops. -/
theorem exists_flushed : ∃ f : Flusher,
    (flushMachine emptySerde).Reach Machine.anyStep f ∧ f.writer.todo = [] ∧
      f.stage ≠ .routes ∧ f.writer.disk routesPath = some emptyRoutes := by
  have started : (flushMachine emptySerde).Reach Machine.anyStep
      ⟨⟨fun _ => none, [], false⟩, .idle, []⟩ := .ofStart ⟨rfl, rfl, rfl, rfl, fun _ _ => rfl⟩
  have written := (reach_emptyFlush started rfl nofun).step trivial (.io .write)
  have renamed := written.step trivial (.io .rename)
  have ended := renamed.step trivial (.crash .between)
  have apart : routesPath ≠ tmpPath routesPath := finalPath_ne_tmpPath (Or.inl rfl)
  refine ⟨_, ended, rfl, nofun, ?_⟩
  dsimp only
  rw [Function.update_of_ne apart, Function.update_self, Function.update_self]

/-- The process dies while it writes `routes.json.tmp` for the second time: the first
file is still in place. -/
theorem flush_crashSafe_torn : ∃ f : Flusher,
    f.writer.disk routesPath = some emptyRoutes ∧
    f.writer.disk (tmpPath routesPath) = some (emptyRoutes.take 5) ∧
    ∃ g file, Flush.routes g file ∈ f.flushes ∧ Snapshot g file ∧
      emptySerde.routes file = some emptyRoutes := by
  obtain ⟨f, reached, idle, follows, inPlace⟩ := exists_flushed
  have apart : routesPath ≠ tmpPath routesPath := finalPath_ne_tmpPath (Or.inl rfl)
  let disk := Function.update f.writer.disk (tmpPath routesPath) (some (emptyRoutes.take 5))
  have kept : disk routesPath = some emptyRoutes :=
    (Function.update_of_ne apart _ _).trans inPlace
  have torn : disk (tmpPath routesPath) = some (emptyRoutes.take 5) := by
    unfold disk
    rw [Function.update_self]
  have ended := (reach_emptyFlush reached idle follows).step trivial
    (.crash (.inWrite (Or.inr ⟨5, rfl⟩)))
  exact ⟨⟨⟨disk, [], false⟩, .idle, f.flushes ++ [.routes .new (flushRoutes .new)]⟩, kept, torn,
    (flush_crashSafe ended).1 _ kept⟩

end ArbBot
