/-
# Muxly.Resource.DocumentPaths -- the three checks of a document path are one

The protocol splits a path at every slash and wants no empty piece; the plain descriptor asks the
protocol. The secure descriptor tokenizes, which passes over empty pieces, and looks for doubled and
trailing slashes apart. An empty piece is nothing else than one of these.
-/
import Muxly.Resource.Secure

namespace Muxly.Resource

open Muxly.Core Muxly.Data
open Muxly.Daemon (isCanonicalDocumentPath rootDocumentPath)

/-- No slash at the end, no two slashes in a row and no dot segment. -/
theorem isCanonicalDocumentPath_cons {rest : Bytes} (hrest : rest ≠ []) :
    isCanonicalDocumentPath (slash :: rest) = true ↔
      ¬((slash :: rest).getLast? = some slash ∨
        (cutSeq (ascii "//") (slash :: rest)).isSome) ∧
      ¬((((slash :: rest).splitOn slash).filter (· ≠ [])).any fun segment =>
        segment = ascii "." || segment = ascii "..") := by
  have hroot : slash :: rest ≠ rootDocumentPath := fun heq => hrest (List.cons.inj heq).2
  have hlast : (slash :: rest).getLast? = rest.getLast? := by
    obtain ⟨c, tail, rfl⟩ := List.exists_cons_of_ne_nil hrest
    exact List.getLast?_cons_cons
  have hdouble : (cutSeq (ascii "//") (slash :: rest)).isSome ↔
      [slash, slash] <:+: slash :: rest := by
    rw [Option.isSome_iff_ne_none, Ne, cutSeq_eq_none, not_not]
    rfl
  have hempty := @nil_mem_splitOn_iff _ _ slash rest hrest
  have hpieces : (slash :: rest).splitOn slash = [] :: rest.splitOn slash := by
    rw [List.splitOn_cons_eq_if_modifyHead, if_pos (by simp)]
  rw [hlast, hdouble, ← hempty, hpieces, List.any_eq_true]
  simp only [isCanonicalDocumentPath, ne_eq, not_true_eq_false, if_false, if_neg hroot, hlast]
  constructor
  · intro h
    split at h
    · cases h
    · rw [List.all_eq_true] at h
      refine ⟨fun hnil => by simpa using h [] hnil, ?_⟩
      rintro ⟨segment, hmem, hdots⟩
      obtain ⟨hmem, hne⟩ := List.mem_filter.mp hmem
      rcases List.mem_cons.mp hmem with rfl | hmem
      · simp at hne
      · have hsegment := h segment hmem
        simp only [Bool.or_eq_true, Bool.and_eq_true, decide_eq_true_eq] at hsegment hdots
        exact hdots.elim hsegment.1.2 hsegment.2
  · rintro ⟨hnil, hdots⟩
    have hend : rest.getLast? ≠ some slash := fun hend => hnil (hempty.mpr (.inl hend))
    rw [if_neg hend, List.all_eq_true]
    intro segment hmem
    have hne : segment ≠ [] := fun heq => hnil (heq ▸ hmem)
    have hother : ¬(segment = ascii "." ∨ segment = ascii "..") := fun hdot =>
      hdots ⟨segment, List.mem_filter.mpr ⟨List.mem_cons_of_mem _ hmem, decide_eq_true hne⟩,
        by simpa using hdot⟩
    rw [not_or] at hother
    simp [hne, hother]

/-- The secure descriptor normalizes a document path as the plain one does. -/
theorem normalizeDocumentPath_toOption (value : Bytes) :
    (normalizeDocumentPath value).toOption = Secure.normalizeDocumentPath value := by
  unfold normalizeDocumentPath Secure.normalizeDocumentPath
  by_cases hempty : value = []
  · rw [if_pos hempty, if_pos hempty]
    rfl
  · rw [if_neg hempty, if_neg hempty]
    obtain ⟨rest, hpath⟩ : ∃ rest,
        (if value.head? = some slash then value else slash :: value) = slash :: rest := by
      obtain ⟨c, tail, rfl⟩ := List.exists_cons_of_ne_nil hempty
      by_cases hc : c = slash
      · exact ⟨tail, by simp [hc]⟩
      · exact ⟨c :: tail, by simp [hc]⟩
    simp only [hpath]
    by_cases hrest : rest = []
    · rw [hrest]
      decide
    · have hroot : slash :: rest ≠ rootDocumentPath := fun heq => hrest (List.cons.inj heq).2
      have hiff := isCanonicalDocumentPath_cons hrest
      split
      · rename_i hcanonical
        obtain ⟨hslashes, hdots⟩ := hiff.mp hcanonical
        rw [if_neg fun h => hslashes h.2, if_neg hdots]
        rfl
      · rename_i hcanonical
        rw [hiff, not_and_or, not_not, not_not] at hcanonical
        rcases hcanonical with hslashes | hdots
        · rw [if_pos ⟨hroot, hslashes⟩]
          rfl
        · rw [if_pos hdots]
          split <;> rfl

/-- What a normalization returns is canonical. -/
theorem canonical_of_normalizeDocumentPath {value path : Bytes}
    (h : normalizeDocumentPath value = .ok path) : isCanonicalDocumentPath path = true := by
  unfold normalizeDocumentPath at h
  by_cases hempty : value = []
  · rw [if_pos hempty] at h
    obtain rfl := Except.ok.inj h
    decide
  · rw [if_neg hempty] at h
    generalize (if value.head? = some slash then value else slash :: value) = documentPath at h
    by_cases hcanonical : isCanonicalDocumentPath documentPath = true
    · simp only [if_pos hcanonical] at h
      obtain rfl := Except.ok.inj h
      exact hcanonical
    · simp only [if_neg hcanonical] at h
      cases h

/-- For every text the two normalizations accept or refuse it together and return the same path, what
they return is canonical, and a text is canonical exactly when both return it as it is. -/
theorem documentPath_checks_agree (text : Bytes) :
    (normalizeDocumentPath text).toOption = Secure.normalizeDocumentPath text ∧
      (∀ path, normalizeDocumentPath text = .ok path ∨ Secure.normalizeDocumentPath text = some path →
        isCanonicalDocumentPath path = true) ∧
      (isCanonicalDocumentPath text = true ↔
        normalizeDocumentPath text = .ok text ∧ Secure.normalizeDocumentPath text = some text) := by
  have hsame := normalizeDocumentPath_toOption text
  have hok : ∀ {path}, Secure.normalizeDocumentPath text = some path →
      normalizeDocumentPath text = .ok path := by
    intro path hpath
    rw [← hsame] at hpath
    cases hplain : normalizeDocumentPath text with
    | error e =>
        rw [hplain] at hpath
        cases hpath
    | ok value =>
        rw [hplain] at hpath
        exact congrArg _ (Option.some.inj hpath)
  refine ⟨hsame, ?_, fun hcanonical => ?_, fun h => canonical_of_normalizeDocumentPath h.1⟩
  · rintro path (hplain | hsecure)
    · exact canonical_of_normalizeDocumentPath hplain
    · exact canonical_of_normalizeDocumentPath (hok hsecure)
  · have hplain := normalizeDocumentPath_of_canonical hcanonical
    refine ⟨hplain, ?_⟩
    rw [← hsame, hplain]
    rfl

end Muxly.Resource
