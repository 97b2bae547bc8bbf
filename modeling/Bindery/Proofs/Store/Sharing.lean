/-
# An index that several caches share

Caches of several processes may be open over one build directory. Each reads the index when it is
opened and from then on keeps its own, to which it adds what it loads, and each save replaces the
whole file by the index of the cache that saves. So the file holds what one cache knows, the one
that saved last:

| entry in the file | because the cache that saved last |
| --- | --- |
| was found | read it when it was opened |
| was added | loaded the call or registered the class itself |

What another cache has recorded since the opening of that cache is lost. So the file has an entry
for everything that any of the caches knows exactly if the cache that saved last has found or knows
all of it (`Site.holdsKnown_iff`). Two caches that are both opened before either of them saves show
that it need not (`Site.not_holdsKnown_overlapping`).
-/

import Bindery.Proofs.Store.Archive
import Bindery.Proofs.Store.Backing

namespace Bindery

variable {ι σ L α : Type}

/-! ### What a cache adds to its index -/

/-- The hashes of the calls that a cache has loaded and of the classes that it has registered. -/
def Cache.known (c : Cache L) : List String :=
  c.loaded.map (·.1) ++ c.classes.map fun e => (Key.ofClass e.1).hash

namespace Bench

/-- The file of the index. -/
def indexFile? (b : Bench σ L) : Option (File L) := b.world.files.get? b.cache.indexPath

/-- A cache has come to know some hashes. It has added them to its index, and saved that if there
were any. -/
structure Learns (b : Bench σ L) (new : List String) (b' : Bench σ L) : Prop where
  dir : b'.cache.dir = b.cache.dir
  beyond : Files.SameBeyond b.cache.dir b.world.files b'.world.files
  known : b'.cache.known.Perm (new ++ b.cache.known)
  index : ∀ hash, hash ∈ Index.hashes b'.cache.index ↔
    hash ∈ new ∨ hash ∈ Index.hashes b.cache.index
  file : new = [] ∧ b'.cache.index = b.cache.index ∧ b'.indexFile? = b.indexFile? ∨
    new ≠ [] ∧ b'.indexFile? = some (.bytes (Archive.write b'.cache.index))

namespace Learns

variable {b b' b'' : Bench σ L} {new more : List String}

theorem blocked (h : Learns b new b') : b'.blocked = b.blocked := by
  rw [Bench.blocked, Cache.indexPath, h.dir]
  exact h.beyond.blocked isName_indexFile

theorem length_known (h : Learns b new b') :
    b'.cache.known.length = new.length + b.cache.known.length := by
  rw [h.known.length_eq, List.length_append]

/-- An index of what was found and what is known stays one. -/
theorem mem_index_iff (h : Learns b new b') {found : Index}
    (hindex : ∀ hash, hash ∈ Index.hashes b.cache.index ↔
      hash ∈ Index.hashes found ∨ hash ∈ b.cache.known) (hash : String) :
    hash ∈ Index.hashes b'.cache.index ↔ hash ∈ Index.hashes found ∨ hash ∈ b'.cache.known := by
  rw [h.index, hindex, h.known.mem_iff, List.mem_append, or_left_comm]

/-- Nothing is learnt where the memory, the index and its file stay as they are. -/
theorem nothing (hdir : b'.cache.dir = b.cache.dir)
    (hbeyond : Files.SameBeyond b.cache.dir b.world.files b'.world.files)
    (hknown : b'.cache.known = b.cache.known) (hindex : b'.cache.index = b.cache.index)
    (hfile : b'.world.files.get? b.cache.indexPath = b.indexFile?) : Learns b [] b' := by
  refine ⟨hdir, hbeyond, .of_eq hknown, by simp [hindex], .inl ⟨rfl, hindex, ?_⟩⟩
  rw [indexFile?, Cache.indexPath, hdir]
  exact hfile

theorem trans (h : Learns b new b') (h' : Learns b' more b'') : Learns b (more ++ new) b'' := by
  refine ⟨h'.dir.trans h.dir, h.beyond.trans (h.dir ▸ h'.beyond), ?_, fun hash => ?_, ?_⟩
  · rw [List.append_assoc]
    exact h'.known.trans (h.known.append_left more)
  · rw [h'.index, h.index, List.mem_append, or_assoc]
  · rcases h'.file with ⟨rfl, hindex, hfile⟩ | ⟨hmore, hfile⟩
    · rw [List.nil_append, hindex, hfile]
      exact h.file
    · exact .inr ⟨by simp [hmore], hfile⟩

end Learns

/-- Counting teaches nothing. -/
theorem learns_count (b : Bench σ L) (f : Stats → Stats) : b.Learns [] (b.count f) :=
  .nothing rfl (.refl _ _) rfl rfl rfl

/-- Recording an entry whose hash has come to be known. -/
theorem learns_recorded {b : Bench σ L} (hfree : b.blocked = false) (e : IndexEntry)
    {c : Cache L} (hdir : c.dir = b.cache.dir) (hindex : c.index = (b.recorded e).cache.index)
    (hknown : c.known.Perm (e.hash :: b.cache.known)) :
    Learns b [e.hash] ⟨c, (b.recorded e).world⟩ := by
  refine ⟨hdir, Cache.sameBeyond_recorded b e, hknown, fun hash => ?_, .inr ⟨by simp, ?_⟩⟩
  · rw [hindex, List.mem_singleton]
    exact Index.mem_hashes_sort.trans (Index.mem_hashes_upsert.trans or_comm)
  · have hblocked : (b.recorded e).blocked = b.blocked :=
      (Cache.sameBeyond_recorded b e).blocked isName_indexFile
    rw [indexFile?, Cache.indexPath, hdir, hindex]
    exact (saved_recorded b e).file (hblocked.trans hfree)

theorem learns_registered {b : Bench σ L} (hfree : b.blocked = false) (q : String)
    (d : Binding L) : Learns b [(Key.ofClass q).hash] (b.registered q d) := by
  have hrecorded := learns_recorded
    (b := b.count fun s => { s with classRegistrations := s.classRegistrations + 1 })
    (c := (b.registered q d).cache) hfree (Cache.classEntry q) rfl rfl List.perm_middle
  exact (learns_count b _).trans hrecorded

theorem learns_supplied {b : Bench σ L} (hfree : b.blocked = false) (key : Key)
    (a : Artifact L) : Learns b [key.hash] (b.supplied key a) :=
  learns_recorded (c := (b.supplied key a).cache) hfree (Cache.callEntry key a) rfl rfl (.refl _)

/-- An attempt teaches nothing. -/
theorem learns_worked {p : Platform σ L} {b : Bench σ L} {stem : String}
    {load : String → Load σ L α} {source : Except Source.EmitError Source.Unit}
    {r : Except CacheError α} {s : Stats} {w : World σ L} (hp : p.Tidy)
    (hload : Load.KeepsFiles load) (hstem : Path.IsName stem)
    (attempt : Cache.Attempt p b.cache stem load source b.world r s w) :
    Learns b [] (b.worked s w) :=
  .nothing rfl (attempt.sameBeyond hp hload hstem) rfl rfl
    (attempt.get?_files hp.writes hload (Cache.indexPath_notMem_stemFiles b.cache stem))

end Bench

namespace Cache

variable {p : Platform σ L} {b b' : Bench σ L}

/-- Whoever asks for a class learns its hash or nothing. -/
theorem Registering.exists_learns {name : String} {r : Except CacheError (Binding L)}
    (step : Registering p name b r b') (hp : p.Tidy) (hfree : b.blocked = false) :
    ∃ new, b.Learns new b' := by
  have hworked : ∀ {r s w}, ClassAttempt p name b r s w → b.Learns [] (b.worked s w) :=
    Bench.learns_worked hp (keepsFiles_binding _ _ _) (isName_classHash name)
  cases step with
  | known => exact ⟨[], .nothing rfl (.refl _ _) rfl rfl rfl⟩
  | failed _ attempt => exact ⟨[], hworked attempt⟩
  | new _ attempt =>
    have hlearns := hworked attempt
    exact ⟨_, hlearns.trans (Bench.learns_registered (hlearns.blocked.trans hfree) _ _)⟩

/-- Whoever asks for a call learns its hash, that of the class of its result, both or nothing. -/
theorem Supplying.exists_learns {key : Key}
    {emit : Context → Except Source.EmitError Source.Unit} {r : Except CacheError (Artifact L)}
    (step : Supplying p key emit b r b') (hp : p.Tidy) (hkey : Path.IsName key.hash)
    (hfree : b.blocked = false) : ∃ new, b.Learns new b' := by
  have hresolved : ∀ {r s w}, CallAttempt p key emit b r s w →
      b.Learns [] (b.worked s w).resolved := fun attempt =>
    (Bench.learns_worked hp (keepsFiles_artifact _ _) hkey attempt).trans (Bench.learns_count _ _)
  cases step with
  | hit => exact ⟨[], Bench.learns_count _ _⟩
  | failed _ attempt =>
    exact ⟨[], Bench.learns_worked hp (keepsFiles_artifact _ _) hkey attempt⟩
  | unregistered _ attempt _ hclass =>
    have hlearns := hresolved attempt
    obtain ⟨new, hnew⟩ := hclass.exists_learns hp (hlearns.blocked.trans hfree)
    exact ⟨_, hlearns.trans hnew⟩
  | plain _ attempt =>
    have hlearns := hresolved attempt
    exact ⟨_, hlearns.trans (Bench.learns_supplied (hlearns.blocked.trans hfree) _ _)⟩
  | object _ attempt _ hclass =>
    have hlearns := hresolved attempt
    obtain ⟨new, hnew⟩ := hclass.exists_learns hp (hlearns.blocked.trans hfree)
    have hboth := hlearns.trans hnew
    exact ⟨_, hboth.trans (Bench.learns_supplied (hboth.blocked.trans hfree) _ _)⟩

end Cache

/-- A happening asks a tidy compiler for what has the name of a file. -/
def Happening.Tidy : Happening σ L → Prop
  | .lookup p key _ => p.Tidy ∧ Path.IsName key.hash
  | .ensureClass p _ => p.Tidy
  | .elsewhere _ world => ∀ w, (world w).files = w.files

/-- **What happens to a cache adds to its index what it learns,** and saves it. -/
theorem Bench.exists_learns_next {b : Bench σ L} {h : Happening σ L} (tidy : h.Tidy)
    (hfree : b.blocked = false) : ∃ new, b.Learns new (b.next h) := by
  cases h with
  | lookup p key emit => exact (Cache.supplying_exec p key emit b).exists_learns tidy.1 tidy.2 hfree
  | ensureClass p name => exact (Cache.registering_exec p name b).exists_learns tidy hfree
  | elsewhere stats world =>
    have hfiles : (world b.world).files = b.world.files := tidy b.world
    refine ⟨[], .nothing rfl ?_ rfl rfl ?_⟩
    · exact hfiles.symm ▸ .refl _ _
    · exact congrArg (·.get? b.cache.indexPath) hfiles

/-! ### Caches over one build directory -/

/-- A cache that shares a build directory, and the index that it found when it was opened. -/
structure Peer (L : Type) where
  found : Index
  cache : Cache L

/-- A build directory with caches over it. Which cache it was that saved its index last is only
remembered to be talked about. -/
structure Site (ι σ L : Type) where
  dir : String
  world : World σ L
  peer? : ι → Option (Peer L) := fun _ => none
  saver? : Option ι := none

/-- What the caches over one build directory do, one after the other. -/
inductive Turn (ι σ L : Type) where
  | opens (i : ι) (p : Platform σ L) (context : Context)
  | works (i : ι) (h : Happening σ L)

/-- A turn writes only what it should. -/
def Turn.Tidy : Turn ι σ L → Prop
  | .opens _ p _ => p.PreparesRules
  | .works _ h => h.Tidy

namespace Site

/-- The path of the index. -/
def indexPath (s : Site ι σ L) : String := Path.join s.dir Cache.indexFile

/-- The file of the index. -/
def indexFile? (s : Site ι σ L) : Option (File L) := s.world.files.get? s.indexPath

/-- The hashes that the file of the index has entries for. -/
def recorded (s : Site ι σ L) : List String :=
  Index.hashes (((s.world.files.read? s.indexPath).bind Archive.read?).getD [])

/-- The file of the index has an entry for everything that any of the caches knows. -/
def HoldsKnown (s : Site ι σ L) : Prop :=
  ∀ i m, s.peer? i = some m → ∀ hash ∈ m.cache.known, hash ∈ s.recorded

variable [DecidableEq ι]

/-- The caches, one of them as it now is. -/
def seat (peers : ι → Option (Peer L)) (i : ι) (m : Peer L) : ι → Option (Peer L) :=
  fun j => if j = i then some m else peers j

/-- The site after one turn. A cache is opened once, and works once it is open. It has saved its
index if it knows more than before. -/
def next (s : Site ι σ L) : Turn ι σ L → Site ι σ L
  | .opens i p context =>
    match s.peer? i with
    | some _ => s
    | none =>
      match exec (Cache.ofDirectory p s.dir context) s.world with
      | (.ok c, world) => { s with world, peer? := seat s.peer? i ⟨c.index, c⟩ }
      | (.error _, world) => { s with world }
  | .works i h =>
    match s.peer? i with
    | none => s
    | some m =>
      let b := Bench.next ⟨m.cache, s.world⟩ h
      { s with
        world := b.world
        peer? := seat s.peer? i ⟨m.found, b.cache⟩
        saver? := if b.cache.known.length = m.cache.known.length then s.saver? else some i }

/-- The site after turns, first to last. -/
def after (s : Site ι σ L) (turns : List (Turn ι σ L)) : Site ι σ L := turns.foldl next s

/-- What the caches of a site and the file of its index have to do with each other. -/
structure Sound (s : Site ι σ L) : Prop where
  free : s.world.files.blocked s.indexPath = false
  dir : ∀ i m, s.peer? i = some m → m.cache.dir = s.dir
  index : ∀ i m, s.peer? i = some m → ∀ hash, hash ∈ Index.hashes m.cache.index ↔
    hash ∈ Index.hashes m.found ∨ hash ∈ m.cache.known
  unsaved : s.saver? = none → ∀ i m, s.peer? i = some m → m.cache.known = []
  saved : ∀ i, s.saver? = some i → ∃ m, s.peer? i = some m ∧
    s.indexFile? = some (.bytes (Archive.write m.cache.index))

omit [DecidableEq ι] in
/-- A site that no cache has been opened over. -/
theorem sound_empty {dir : String} {world : World σ L}
    (free : world.files.blocked (Path.join dir Cache.indexFile) = false) :
    Sound { dir, world : Site ι σ L } :=
  ⟨free, nofun, nofun, fun _ => nofun, nofun⟩

theorem cases_of_seat {peers : ι → Option (Peer L)} {i j : ι} {m m' : Peer L}
    (h : seat peers i m j = some m') : m' = m ∨ peers j = some m' := by
  unfold seat at h
  split at h
  · exact .inl (Option.some.inj h).symm
  · exact .inr h

namespace Sound

variable {s : Site ι σ L} {i : ι}

/-- Opening a cache, even in vain, leaves the file of the index alone. -/
theorem opened (h : Sound s) (hi : s.peer? i = none) {p : Platform σ L} {context : Context}
    (hp : p.PreparesRules) : Sound (s.next (.opens i p context)) := by
  rcases hopen : exec (Cache.ofDirectory p s.dir context) s.world with ⟨e | c, world⟩
  all_goals
    have hfile : world.files.get? s.indexPath = s.indexFile? :=
      (Cache.get?_of_exec_ofDirectory hp hopen).2
    have hfree : world.files.blocked s.indexPath = s.world.files.blocked s.indexPath :=
      (Cache.sameBeyond_of_exec_ofDirectory hp hopen).blocked isName_indexFile
    simp only [next, hi, hopen]
  case error =>
    refine ⟨hfree.trans h.free, h.dir, h.index, h.unsaved, fun j hj => ?_⟩
    obtain ⟨m, hm, hsaved⟩ := h.saved j hj
    exact ⟨m, hm, hfile.trans hsaved⟩
  case ok =>
    obtain ⟨hdir, -, hloaded, hclasses, -⟩ := Cache.of_exec_ofDirectory hopen
    have hknown : c.known = [] := by rw [Cache.known, hloaded, hclasses]; rfl
    refine ⟨hfree.trans h.free, fun j m hj => ?_, fun j m hj => ?_, fun hsaver j m hj => ?_,
      fun j hj => ?_⟩
    · rcases cases_of_seat hj with rfl | hj
      · exact hdir
      · exact h.dir j m hj
    · rcases cases_of_seat hj with rfl | hj
      · simp [hknown]
      · exact h.index j m hj
    · rcases cases_of_seat hj with rfl | hj
      · exact hknown
      · exact h.unsaved hsaver j m hj
    · obtain ⟨m, hm, hsaved⟩ := h.saved j hj
      have hne : j ≠ i := by
        rintro rfl
        rw [hi] at hm
        exact absurd hm nofun
      exact ⟨m, (if_neg hne).trans hm, hfile.trans hsaved⟩

/-- A cache that has learnt something has saved its own index, and any other has left the file
alone. -/
theorem worked (h : Sound s) {m : Peer L} (hi : s.peer? i = some m) {happening : Happening σ L}
    (tidy : happening.Tidy) : Sound (s.next (.works i happening)) := by
  have hpath : m.cache.indexPath = s.indexPath := by rw [Cache.indexPath, h.dir i m hi, indexPath]
  obtain ⟨new, hlearns⟩ := Bench.exists_learns_next (b := ⟨m.cache, s.world⟩) tidy
    (by rw [Bench.blocked, hpath]; exact h.free)
  simp only [Site.next, hi]
  generalize Bench.next ⟨m.cache, s.world⟩ happening = b at hlearns
  have hdir : b.cache.dir = s.dir := hlearns.dir.trans (h.dir i m hi)
  have hpath' : b.cache.indexPath = s.indexPath := by rw [Cache.indexPath, hdir, indexPath]
  have hfree : b.world.files.blocked s.indexPath = false := by
    have hblocked := hlearns.blocked
    rw [Bench.blocked, Bench.blocked, hpath', hpath] at hblocked
    exact hblocked.trans h.free
  have hlength : b.cache.known.length = new.length + m.cache.known.length := hlearns.length_known
  refine ⟨hfree, fun j m' hj => ?_, fun j m' hj => ?_, fun hsaver j m' hj => ?_, fun j hj => ?_⟩
  · rcases cases_of_seat hj with rfl | hj
    · exact hdir
    · exact h.dir j m' hj
  · rcases cases_of_seat hj with rfl | hj
    · exact hlearns.mem_index_iff (h.index i m hi)
    · exact h.index j m' hj
  · by_cases hsame : b.cache.known.length = m.cache.known.length
    · have hnone : s.saver? = none := (if_pos hsame).symm.trans hsaver
      rcases cases_of_seat hj with rfl | hj
      · rw [h.unsaved hnone i m hi] at hsame
        exact List.length_eq_zero_iff.1 hsame
      · exact h.unsaved hnone j m' hj
    · have hsome : some i = none := (if_neg hsame).symm.trans hsaver
      cases hsome
  · rcases hlearns.file with ⟨rfl, hkept, hfile⟩ | ⟨hnew, hfile⟩
    · -- Nothing was learnt: the cache that saved last still is the last one.
      have hlast : s.saver? = some j := (if_pos (hlength.trans (Nat.zero_add _))).symm.trans hj
      obtain ⟨m', hm', hsaved⟩ := h.saved j hlast
      have hfile' : b.world.files.get? s.indexPath =
          some (.bytes (Archive.write m'.cache.index)) := by
        rw [Bench.indexFile?, Bench.indexFile?, hpath', hpath] at hfile
        exact hfile.trans hsaved
      by_cases hji : j = i
      · subst hji
        obtain rfl := Option.some.inj (hm'.symm.trans hi)
        exact ⟨⟨m'.found, b.cache⟩, if_pos rfl, hkept ▸ hfile'⟩
      · exact ⟨m', (if_neg hji).trans hm', hfile'⟩
    · -- Something was learnt: this cache has saved.
      have hmore : b.cache.known.length ≠ m.cache.known.length := by
        have hpos := List.length_pos_iff.2 hnew
        omega
      obtain rfl := Option.some.inj ((if_neg hmore).symm.trans hj)
      rw [Bench.indexFile?, hpath'] at hfile
      exact ⟨⟨m.found, b.cache⟩, if_pos rfl, hfile⟩

/-- **One turn keeps a site sound.** -/
theorem next (h : Sound s) {turn : Turn ι σ L} (tidy : turn.Tidy) : Sound (s.next turn) := by
  cases turn with
  | opens i p context =>
    cases hi : s.peer? i with
    | none => exact h.opened hi tidy
    | some m => simpa only [Site.next, hi] using h
  | works i happening =>
    cases hi : s.peer? i with
    | none => simpa only [Site.next, hi] using h
    | some m => exact h.worked hi tidy

/-- A site stays sound. -/
theorem after (h : Sound s) {turns : List (Turn ι σ L)} (tidy : ∀ t ∈ turns, t.Tidy) :
    Sound (s.after turns) := by
  induction turns generalizing s with
  | nil => exact h
  | cons t turns ih =>
    obtain ⟨ht, hrest⟩ := List.forall_mem_cons.1 tidy
    exact ih (h.next ht) hrest

omit [DecidableEq ι] in
/-- **What the file has entries for:** what the cache that saved last has found, and what it
knows. -/
theorem mem_recorded_iff (h : Sound s) {m : Peer L} (hlast : s.saver? = some i)
    (hi : s.peer? i = some m) (fits : Archive.Fits m.cache.index) (hash : String) :
    hash ∈ s.recorded ↔ hash ∈ Index.hashes m.found ∨ hash ∈ m.cache.known := by
  obtain ⟨m', hm', hsaved⟩ := h.saved i hlast
  obtain rfl := Option.some.inj (hm'.symm.trans hi)
  have hread : s.world.files.read? s.indexPath = some (Archive.write m'.cache.index) := by
    rw [Files.read?, show s.world.files.get? s.indexPath = _ from hsaved]
  rw [recorded, hread, Option.bind_some, Archive.read?_write fits, Option.getD_some]
  exact h.index i m' hi hash

end Sound

/-- **When the index loses nothing.** Caches are opened over a build directory and used, in any
number and any order, and nothing is in the way of the index. Then its file has an entry for
everything that any of them knows exactly if the cache that saved last found all of it when it was
opened, or knows it itself. -/
theorem holdsKnown_iff {dir : String} {world : World σ L}
    (free : world.files.blocked (Path.join dir Cache.indexFile) = false)
    {turns : List (Turn ι σ L)} (tidy : ∀ t ∈ turns, t.Tidy) {s : Site ι σ L}
    (run : after { dir, world } turns = s)
    (fits : ∀ i m, s.saver? = some i → s.peer? i = some m → Archive.Fits m.cache.index) :
    s.HoldsKnown ↔ ∀ i m, s.saver? = some i → s.peer? i = some m →
      ∀ j m', s.peer? j = some m' → ∀ hash ∈ m'.cache.known,
        hash ∈ Index.hashes m.found ∨ hash ∈ m.cache.known := by
  have sound : s.Sound := run ▸ (sound_empty free).after tidy
  constructor
  · intro holds i m hlast hi j m' hj hash hhash
    exact (sound.mem_recorded_iff hlast hi (fits i m hlast hi) hash).1 (holds j m' hj hash hhash)
  · intro hall j m' hj hash hhash
    cases hlast : s.saver? with
    | none =>
      rw [sound.unsaved hlast j m' hj] at hhash
      exact absurd hhash List.not_mem_nil
    | some i =>
      obtain ⟨m, hi, -⟩ := sound.saved i hlast
      exact (sound.mem_recorded_iff hlast hi (fits i m hlast hi) hash).2
        (hall i m hlast hi j m' hj hash hhash)

/-! ### Two caches -/

/-- A site without files for two caches. -/
def ofTwo : Site Bool Unit (List UInt8) := { dir := "/build", world := ⟨{}, (), 0⟩ }

/-- Two caches are open before either of them saves; the first asks for one class and the second
for another. -/
def overlapping (first second : String) : List (Turn Bool Unit (List UInt8)) :=
  [.opens false transcriber {}, .opens true transcriber {},
    .works false (.ensureClass transcriber first), .works true (.ensureClass transcriber second)]

theorem free_ofTwo : ofTwo.world.files.blocked (Path.join ofTwo.dir Cache.indexFile) = false := by
  decide +kernel

theorem tidy_overlapping (first second : String) : ∀ t ∈ overlapping first second, t.Tidy := by
  simp only [overlapping, List.forall_mem_cons, List.not_mem_nil]
  exact ⟨preparesRules_transcriber, preparesRules_transcriber, tidy_transcriber, tidy_transcriber,
    nofun⟩

/-- The hypotheses of `holdsKnown_iff` are satisfiable: nothing is lost where both caches ask for
the same class. -/
theorem holdsKnown_overlapping :
    ofTwo.world.files.blocked (Path.join ofTwo.dir Cache.indexFile) = false ∧
    (∀ t ∈ overlapping "P" "P", t.Tidy) ∧
    (ofTwo.after (overlapping "P" "P")).saver? = some true ∧
    (ofTwo.after (overlapping "P" "P")).HoldsKnown := by
  -- One evaluation of the run for all that it is to show.
  have hrun : (decide ((ofTwo.after (overlapping "P" "P")).saver? = some true) &&
      ((ofTwo.after (overlapping "P" "P")).peer? true).all fun m =>
        decide ((Archive.write m.cache.index).length < 0x40000000) &&
          [false, true].all fun j => ((ofTwo.after (overlapping "P" "P")).peer? j).all fun m' =>
            m'.cache.known.all fun hash => decide (hash ∈ m.cache.known)) = true := by
    decide +kernel
  generalize hs : ofTwo.after (overlapping "P" "P") = s at hrun ⊢
  obtain ⟨hsaver, hall⟩ := Bool.and_eq_true_iff.1 hrun
  have hlast : s.saver? = some true := of_decide_eq_true hsaver
  have hpeer : ∀ i m, s.saver? = some i → s.peer? i = some m → Archive.Fits m.cache.index ∧
      ∀ j m', s.peer? j = some m' → ∀ hash ∈ m'.cache.known, hash ∈ m.cache.known := by
    intro i m hi hm
    obtain rfl := Option.some.inj (hlast.symm.trans hi)
    rw [hm, Option.all_some, Bool.and_eq_true_iff, List.all_eq_true] at hall
    have hfits : (Archive.write m.cache.index).length < 0x40000000 := of_decide_eq_true hall.1
    refine ⟨hfits, fun j m' hm' hash hhash => ?_⟩
    have hj := hall.2 j (by cases j <;> decide)
    rw [hm', Option.all_some, List.all_eq_true] at hj
    exact of_decide_eq_true (hj hash hhash)
  refine ⟨free_ofTwo, tidy_overlapping _ _, hlast, ?_⟩
  exact (holdsKnown_iff free_ofTwo (tidy_overlapping _ _) hs
    fun i m hi hm => (hpeer i m hi hm).1).2
      fun i m hi hm j m' hm' hash hhash => .inr ((hpeer i m hi hm).2 j m' hm' hash hhash)

/-- What the first cache has recorded is lost when the second one saves. -/
theorem not_holdsKnown_overlapping :
    ofTwo.world.files.blocked (Path.join ofTwo.dir Cache.indexFile) = false ∧
    (∀ t ∈ overlapping "P" "Q", t.Tidy) ∧
    ∃ m, (ofTwo.after (overlapping "P" "Q")).peer? false = some m ∧
      Cache.classHash "P" ∈ m.cache.known ∧
      Cache.classHash "P" ∉ (ofTwo.after (overlapping "P" "Q")).recorded ∧
      ¬ (ofTwo.after (overlapping "P" "Q")).HoldsKnown := by
  have hrun : (((ofTwo.after (overlapping "P" "Q")).peer? false).any fun m =>
      decide (Cache.classHash "P" ∈ m.cache.known) &&
        !decide (Cache.classHash "P" ∈ (ofTwo.after (overlapping "P" "Q")).recorded)) = true := by
    decide +kernel
  obtain ⟨m, hm, hboth⟩ := (Option.any_eq_true ..).1 hrun
  obtain ⟨hknown, hrecorded⟩ := Bool.and_eq_true_iff.1 hboth
  have hlost : Cache.classHash "P" ∉ (ofTwo.after (overlapping "P" "Q")).recorded := by
    simpa using hrecorded
  refine ⟨free_ofTwo, tidy_overlapping _ _, m, hm, of_decide_eq_true hknown, hlost, ?_⟩
  exact fun holds => hlost (holds false m hm _ (of_decide_eq_true hknown))

end Site
end Bindery
