/-
# Muxly.Documents.Orderly -- code on the store that ends, and what it keeps

A store is `Sound` when its documents are, the root document is the first of them, and no two have
one path. Code is `Orderly` when, run alone from mutexes that it does not take, it ends with these
mutexes and leaves the store sound, with the documents that were there in their places; and when
none of its steps, whenever it is taken, renames or removes a document. All that the daemon does
for tmux is.
-/
import Muxly.Daemon.Upkeep
import Muxly.Documents.Tmux

namespace Muxly.Documents

open Muxly.Control Muxly.Core Muxly.Daemon Muxly.Sync Muxly.Sync.Program

variable {α β : Type}

/-! ## The documents of a store -/

/-- The paths of the documents, in order. -/
def Store.paths (s : Store) : List Bytes := s.documents.map (·.path)

/-- The root document is the first, and every document has a canonical path of its own. -/
structure Store.Named (s : Store) : Prop where
  root : s.paths.head? = some rootDocumentPath
  nodup : s.paths.Nodup
  canonical : ∀ documentPath ∈ s.paths, isCanonicalDocumentPath documentPath = true

/-- The documents of a store that names them rightly are valid. -/
structure Sound (s : Store) : Prop extends s.Named where
  sane : ∀ e ∈ s.documents, Sane e

/-- A later store: the same documents in the same places, and perhaps more. -/
structure Extends (s s' : Store) : Prop where
  paths : s.paths <+: s'.paths
  named : s.Named → s'.Named

theorem known_of_eq {paths paths' : List Bytes} (h : paths' = paths) : paths <+: paths' :=
  h ▸ List.prefix_rfl

theorem Extends.of_paths {s s' : Store} (h : s'.paths = s.paths) : Extends s s' where
  paths := known_of_eq h
  named hs := ⟨by rw [h]; exact hs.root, by rw [h]; exact hs.nodup, by rw [h]; exact hs.canonical⟩

theorem Extends.of_documents {s s' : Store} (h : s'.documents = s.documents) : Extends s s' := by
  refine .of_paths ?_
  rw [Store.paths, h]
  rfl

theorem extends_progress : Action.Progress Extends where
  refl _ := .of_paths rfl
  trans h h' := ⟨h.paths.trans h'.paths, fun hs => h'.named (h.named hs)⟩

theorem length_paths (s : Store) : s.paths.length = s.documents.length := List.length_map _

theorem place_eq (s : Store) (documentPath : Bytes) :
    s.place documentPath = s.paths.findIdx? fun path => path = documentPath := by
  rw [Store.place, Store.paths, List.findIdx?_map]
  rfl

/-- A document keeps its place when others come behind it. -/
theorem place_of_known {paths : List Bytes} {s : Store} {documentPath : Bytes} {index : Nat}
    (hpaths : paths <+: s.paths)
    (h : paths.findIdx? (fun path => path = documentPath) = some index) :
    s.place documentPath = some index := by
  obtain ⟨rest, hrest⟩ := hpaths
  rw [place_eq, ← hrest, List.findIdx?_append, h]
  rfl

theorem Extends.place {s s' : Store} (h : Extends s s') {documentPath : Bytes} {index : Nat}
    (hs : s.place documentPath = some index) : s'.place documentPath = some index := by
  rw [place_eq] at hs
  exact place_of_known h.paths hs

theorem Store.Named.place_root {s : Store} (h : s.Named) :
    s.place rootDocumentPath = some 0 := by
  rw [place_eq]
  cases hpaths : s.paths with
  | nil => simpa [hpaths] using h.root
  | cons path rest =>
      have hpath : path = rootDocumentPath := by simpa [hpaths] using h.root
      rw [List.findIdx?_cons, if_pos (by simpa using hpath)]

theorem entryAt_eq {s : Store} {index : Nat} (h : index < s.documents.length) :
    s.entryAt index = s.documents[index] := by simp [Store.entryAt, h]

/-- What the place of a path says. -/
theorem place_some {s : Store} {documentPath : Bytes} {index : Nat}
    (h : s.place documentPath = some index) :
    index < s.documents.length ∧ (s.entryAt index).path = documentPath := by
  obtain ⟨hlt, hpath, -⟩ := List.findIdx?_eq_some_iff_getElem.mp h
  refine ⟨hlt, ?_⟩
  rw [entryAt_eq hlt]
  simpa using hpath

theorem entryAt_mem {s : Store} {index : Nat} (h : index < s.documents.length) :
    s.entryAt index ∈ s.documents := by
  rw [entryAt_eq h]
  exact List.getElem_mem h

theorem paths_withEntry {s : Store} {index : Nat} {e : DocumentEntry}
    (h : e.path = (s.entryAt index).path) : (s.withEntry index e).paths = s.paths := by
  rw [Store.paths, Store.withEntry, List.map_set, ← Store.paths]
  by_cases hlt : index < s.documents.length
  · have hlength : index < s.paths.length := by
      rw [length_paths]
      exact hlt
    have hsame : e.path = s.paths[index] := by
      rw [h, entryAt_eq hlt]
      simp [Store.paths]
    rw [hsame, List.set_getElem_self]
  · exact List.set_eq_of_length_le (by rw [length_paths]; omega)

/-! ## Orderly code -/

/-- A sound store with these documents, and perhaps more behind them. -/
structure Lists (paths : List Bytes) (s : Store) : Prop where
  sound : Sound s
  known : paths <+: s.paths

/-- Run alone from `held` the code ends, and what it leaves is sound; none of its steps, whenever it
is taken, renames or removes a document. -/
structure Orderly (held : List StoreMutex) (p : StoreM α) : Prop where
  executes : ∀ paths, Executes held (Lists paths) p fun _ => Lists paths
  steps : p.Each Extends

section Rules

variable {held : List StoreMutex} {p : StoreM α}

theorem orderly_ret (r : Except Failure α) : Orderly held (.ret r : StoreM α) :=
  ⟨fun _ => executes_ret fun _ hs => hs, each_ret r⟩

theorem Orderly.bindResult (hp : Orderly held p) {k : Except Failure α → StoreM β}
    (hk : ∀ r, Orderly held (k r)) : Orderly held (Program.bindResult p k) :=
  ⟨fun paths => (hp.executes paths).bindResult fun r => (hk r).executes paths,
    hp.steps.bindResult fun r => (hk r).steps⟩

theorem Orderly.bind (hp : Orderly held p) {k : α → StoreM β} (hk : ∀ a, Orderly held (k a)) :
    Orderly held (p >>= k) := by
  refine hp.bindResult fun r => ?_
  cases r with
  | ok a => exact hk a
  | error failure => exact orderly_ret _

theorem Orderly.forEach {xs : List β} {body : β → StoreM Unit} (h : ∀ x ∈ xs, Orderly held (body x)) :
    Orderly held (Program.forEach xs body) := by
  induction xs with
  | nil => exact orderly_ret _
  | cons x rest ih =>
      exact (h x (List.mem_cons_self ..)).bind fun _ =>
        ih fun y hy => h y (List.mem_cons_of_mem _ hy)

theorem Orderly.tryCatch (hp : Orderly held p) {handler : Failure → StoreM α}
    (hk : ∀ failure, Orderly held (handler failure)) :
    Orderly held (tryCatch p handler : StoreM α) := by
  refine hp.bindResult fun r => ?_
  cases r with
  | ok a => exact orderly_ret _
  | error failure => exact hk failure

/-- A step that leaves the documents alone. -/
theorem orderly_act {f : Store → Except Failure α × Store}
    (h : ∀ s, (f s).2.documents = s.documents) : Orderly held (act f) := by
  refine ⟨fun paths => executes_act fun s hs => ?_, each_act fun s => .of_documents (h s)⟩
  have hext : Extends s (f s).2 := .of_documents (h s)
  refine ⟨⟨hext.named hs.sound.toNamed, ?_⟩, hs.known.trans hext.paths⟩
  rw [h s]
  exact hs.sound.sane

theorem orderly_read (f : Store → Except Failure α) : Orderly held (read f) :=
  orderly_act fun _ => rfl

end Rules

/-! ## Code on one document -/

section Entries

variable {held : List StoreMutex} {p : EntryM α} {index : Nat}

/-- A document in its place is changed and stays what it is called. -/
theorem Lists.withEntry {paths : List Bytes} {s : Store} (hs : Lists paths s) {e : DocumentEntry}
    (hpath : e.path = (s.entryAt index).path) (he : Sane e) :
    Lists paths (s.withEntry index e) := by
  have hsame := paths_withEntry hpath
  have hext : Extends s (s.withEntry index e) := .of_paths hsame
  refine ⟨⟨hext.named hs.sound.toNamed, fun e' he' => ?_⟩, hs.known.trans hext.paths⟩
  rcases List.mem_or_eq_of_mem_set he' with hold | rfl
  · exact hs.sound.sane e' hold
  · exact he

theorem each_onEntry (hpath : KeepsPath p) (index : Nat) : (onEntry index p).Each Extends := by
  refine (hpath.zoom (entryPart index) fun m => (index, m)).mono fun s s' h => ?_
  obtain ⟨e, rfl, he⟩ := h
  exact .of_paths (paths_withEntry he)

/-- Code on the entry at a place runs as it does by itself. -/
theorem executes_onEntry {Q : Except Failure α → Prop}
    (hp : Executes [] Sane p fun r e => Sane e ∧ Q r) (hpath : KeepsPath p)
    (hfree : ∀ m, (index, m) ∉ held) {paths : List Bytes} (hindex : index < paths.length) :
    Executes held (Lists paths) (onEntry index p) fun r s => Lists paths s ∧ Q r := by
  intro s hs
  have hlt : index < s.documents.length := by
    have := hs.known.length_le
    rw [length_paths] at this
    omega
  have hsane : Sane (s.entryAt index) := hs.sound.sane _ (entryAt_mem hlt)
  have hinj : Function.Injective fun m : Mutex => (index, m) := fun _ _ h => (Prod.ext_iff.mp h).2
  have hhas : (entryPart index).Has s := hlt
  obtain ⟨hsolo, hsane', hr⟩ := hp.zoom (k := Unit) hinj hfree hhas hsane
  have hsame : (p.unlocked (s.entryAt index)).2.path = (s.entryAt index).path :=
    hpath.unlocked samePath_progress _
  exact ⟨_, _, hsolo, hs.withEntry hsame hsane', hr⟩

theorem solo_placeOr (failure : Failure) (s : Store) (documentPath : Bytes) :
    solo (placeOr failure documentPath) held s
      = (.done ((s.place documentPath).elim (.error failure) .ok), held, s) := rfl

/-- What is found is in its place. -/
theorem place_of_elim {failure : Failure} {place : Option Nat}
    (h : place.elim (.error failure) .ok = Except.ok index) : place = some index := by
  cases place with
  | none => cases h
  | some found => exact congrArg some (Except.ok.inj h)

/-- What is run on the root document. -/
theorem executes_onRoot {Q : Except Failure α → Prop}
    (hp : Executes [] Sane p fun r e => Sane e ∧ Q r) (hpath : KeepsPath p)
    (hfree : ∀ m, (0, m) ∉ held) (paths : List Bytes) :
    Executes held (Lists paths) (onRoot p) fun r s => Lists paths s ∧ Q r := by
  intro s hs
  have hroot : s.place rootDocumentPath = some 0 := hs.sound.place_root
  have hone : 0 < s.paths.length := by
    rw [length_paths]
    exact (place_some hroot).1
  obtain ⟨r, s', hsolo, hs', hr⟩ := executes_onEntry hp hpath hfree hone s ⟨hs.sound, List.prefix_rfl⟩
  refine ⟨r, s', ?_, ⟨hs'.sound, hs.known.trans hs'.known⟩, hr⟩
  rw [← hsolo]
  show solo (bindResult rootDocument _) held s = _
  rw [solo_bindResult, rootDocument, solo_placeOr, hroot]
  rfl

theorem orderly_onRoot (hp : Steady p) (hfree : ∀ m, (0, m) ∉ held) : Orderly held (onRoot p) := by
  refine ⟨fun paths => ?_, ?_⟩
  · exact (executes_onRoot (hp.executes.mono (fun _ h => h) fun _ _ h => ⟨h, trivial⟩) hp.path hfree
      paths).mono (fun _ h => h) fun _ _ h => h.1
  · exact (each_read extends_progress.refl _).bind fun index => each_onEntry hp.path index

end Entries

end Muxly.Documents
