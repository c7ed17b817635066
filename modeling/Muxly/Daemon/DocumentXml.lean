/-
# Muxly.Daemon.DocumentXml -- the XML that describes a document

`Document.writeXml` lists the nodes of a document in preorder, one element after the other, with all
of their fields but the backend id, the parent and the children. The text tells the list and every
field in it; it does not tell the links. `serialization_preserves_hierarchy` draws the line: the
links can be told from the text exactly when at most one node hangs below the root.
-/
import Muxly.Core.Accepted
import Muxly.Core.Mutations
import Muxly.Core.Names
import Muxly.Daemon.DocumentJson
import Muxly.Data.Readable

namespace Muxly.Daemon

open Muxly.Control Muxly.Core Muxly.Data Muxly.Tree

/-! ## Elements -/

/-- `escapeXml` of one byte. -/
def escapeXmlByte (char : UInt8) : Bytes :=
  if char = 38 then ascii "&amp;"
  else if char = 60 then ascii "&lt;"
  else if char = 62 then ascii "&gt;"
  else if char = 34 then ascii "&quot;"
  else if char = 39 then ascii "&apos;"
  else [char]

/-- `escapeXml` of `muxml.zig`. -/
def escapeXml (value : Bytes) : Bytes := value.flatMap escapeXmlByte

/-- `writeEscapedXml` of `document.zig`. -/
def writeEscapedXml : Bytes → Bytes
  | [] => []
  | char :: rest =>
    (if char = 38 then ascii "&amp;"
    else if char = 60 then ascii "&lt;"
    else if char = 62 then ascii "&gt;"
    else if char = 34 then ascii "&quot;"
    else if char = 39 then ascii "&apos;"
    else [char]) ++ writeEscapedXml rest

/-- An attribute, from its name to its closing quote. -/
def attributeXml (head : String) (value : Bytes) : Bytes :=
  ascii head ++ escapeXml value ++ ascii "\""

/-- `@tagName` of a file mode. -/
def fileModeTag : FileMode → Bytes
  | .monitored => ascii "monitored"
  | .static => ascii "static"

/-- `@tagName` of an artifact kind. -/
def artifactKindTag : TerminalArtifactKind → Bytes
  | .text => ascii "text"
  | .surface => ascii "surface"

/-- `@tagName` of a content format. -/
def contentFormatTag : TerminalArtifactContentFormat → Bytes
  | .plainText => ascii "plain_text"
  | .sectionedText => ascii "sectioned_text"

/-- `writeArtifactSectionsXml`. -/
def writeArtifactSectionsXml (sections : TerminalArtifactSections) : Bytes :=
  (if sections.surface then ascii "surface" else []) ++
    (if sections.alternate then
      (if sections.surface then ascii "," else []) ++ ascii "alternate"
    else [])

/-- `writeSourceXml`. -/
def writeSourceXml : Source → Bytes
  | .none => ascii "<source kind=\"none\"/>"
  | .tty tty =>
    ascii "<source kind=\"tty\"" ++ ascii " sessionName=\"" ++ escapeXml tty.sessionName ++
      ascii "\"" ++ optional (attributeXml " windowId=\"") tty.windowId ++
      optional (attributeXml " paneId=\"") tty.paneId ++ ascii "/>"
  | .file file =>
    ascii "<source kind=\"file\" path=\"" ++ escapeXml file.path ++ ascii "\" mode=\"" ++
      fileModeTag file.mode ++ ascii "\"/>"
  | .terminalArtifact artifact =>
    ascii "<source kind=\"terminal_artifact\" artifactKind=\"" ++
      artifactKindTag artifact.artifactKind ++ ascii "\" contentFormat=\"" ++
      contentFormatTag artifact.contentFormat ++
      (if artifact.sections.surface || artifact.sections.alternate then
        ascii "\" sections=\"" ++ writeArtifactSectionsXml artifact.sections
      else []) ++
      ascii "\" origin=\"" ++ ascii "tty" ++ ascii "\"" ++
      optional (attributeXml " sessionName=\"") artifact.sessionName ++
      optional (attributeXml " windowId=\"") artifact.windowId ++
      optional (attributeXml " paneId=\"") artifact.paneId ++ ascii "/>"

/-- `writeXml` of a node. -/
def writeNodeXml (node : Node) : Bytes :=
  ascii "<node id=\"" ++ decimal node.id ++ ascii "\" kind=\"" ++ node.kind.tagName ++
    ascii "\" lifecycle=\"" ++ lifecycleTag node.lifecycle ++ ascii "\" followTail=\"" ++
    (if node.followTail then ascii "true" else ascii "false") ++ ascii "\"" ++
    optional (attributeXml " name=\"") node.name ++ ascii ">" ++
    ascii "<title>" ++ escapeXml node.title ++ ascii "</title>" ++ writeSourceXml node.source ++
    ascii "<content>" ++ escapeXml node.content ++ ascii "</content></node>"

/-- `writeXml` of a document, the result of `document.serialize`. -/
def writeXml (d : Document) : Except Failure Bytes := do
  let nodes ← d.walkPreorder (fun nodes node => .ok (nodes ++ writeNodeXml node)) []
  return ascii "<muxml id=\"" ++ decimal d.id ++ ascii "\" lifecycle=\"" ++
    lifecycleTag d.lifecycle ++ ascii "\">" ++ ascii "<title>" ++ writeEscapedXml d.title ++
    ascii "</title><nodes>" ++ nodes ++ ascii "</nodes></muxml>"

/-! ## The text tells the fields -/

/-- The two escape functions agree. -/
theorem writeEscapedXml_eq (value : Bytes) : writeEscapedXml value = escapeXml value := by
  induction value with
  | nil => rfl
  | cons char rest ih =>
      rw [writeEscapedXml, ih]
      rfl

/-- The bytes that are escaped. -/
theorem escapeXmlByte_cases (char : UInt8) :
    (char ∈ [38, 60, 62, 34, 39]) ∨
      (char ∉ [38, 60, 62, 34, 39] ∧ escapeXmlByte char = [char]) := by
  by_cases hmem : char ∈ [38, 60, 62, 34, 39]
  · exact .inl hmem
  · refine .inr ⟨hmem, ?_⟩
    simp only [List.mem_cons, List.not_mem_nil, or_false, not_or] at hmem
    obtain ⟨h1, h2, h3, h4, h5⟩ := hmem
    rw [escapeXmlByte, if_neg h1, if_neg h2, if_neg h3, if_neg h4, if_neg h5]

/-- An escaped byte starts with an ampersand. -/
theorem head_escapeXmlByte {char : UInt8} (h : char ∈ [38, 60, 62, 34, 39]) :
    ∃ rest, escapeXmlByte char = 38 :: rest := by
  simp only [List.mem_cons, List.not_mem_nil, or_false] at h
  rcases h with rfl | rfl | rfl | rfl | rfl <;> exact ⟨_, rfl⟩

/-- The five texts that an escaped byte is written as. -/
def entities : List Bytes :=
  [ascii "&amp;", ascii "&lt;", ascii "&gt;", ascii "&quot;", ascii "&apos;"]

/-- A text in which nothing can be taken for markup: it is made of entities, and of bytes that are no
ampersand, bracket or quote. -/
inductive Escaped : Bytes → Prop where
  | nil : Escaped []
  | plain {char : UInt8} {rest : Bytes} : char ∉ [38, 60, 62, 34, 39] → Escaped rest →
      Escaped (char :: rest)
  | entity {entity rest : Bytes} : entity ∈ entities → Escaped rest → Escaped (entity ++ rest)

theorem escaped_escapeXml (value : Bytes) : Escaped (escapeXml value) := by
  induction value with
  | nil => exact .nil
  | cons char rest ih =>
      show Escaped (escapeXmlByte char ++ escapeXml rest)
      rcases escapeXmlByte_cases char with hescaped | ⟨hplain, hwrite⟩
      · refine .entity ?_ ih
        simp only [List.mem_cons, List.not_mem_nil, or_false] at hescaped
        rcases hescaped with rfl | rfl | rfl | rfl | rfl <;> decide
      · rw [hwrite]
        exact .plain hplain ih

/-- No bracket and no quote stands in an escaped text. -/
theorem Escaped.free {text : Bytes} (h : Escaped text) {delimiter : UInt8}
    (hdelimiter : delimiter ∈ [60, 62, 34, 39]) : delimiter ∉ text := by
  induction h with
  | nil => exact List.not_mem_nil
  | plain hplain _ ih =>
      refine List.mem_cons.not.mpr (not_or.mpr ⟨?_, ih⟩)
      rintro rfl
      exact hplain (List.mem_cons_of_mem _ hdelimiter)
  | @entity entity rest hentity _ ih =>
      refine List.mem_append.not.mpr (not_or.mpr ⟨?_, ih⟩)
      have hall : ∀ entity ∈ entities, ∀ delimiter ∈ ([60, 62, 34, 39] : Bytes),
          delimiter ∉ entity := by decide +kernel
      exact hall entity hentity delimiter hdelimiter

theorem readable_escapeXmlByte : Readable escapeXmlByte := by
  refine readable_of_prefix fun a b hleading => ?_
  rcases escapeXmlByte_cases a with ha | ⟨ha, hwrite⟩
  · rcases escapeXmlByte_cases b with hb | ⟨hb, hwrite'⟩
    · simp only [List.mem_cons, List.not_mem_nil, or_false] at ha hb
      rcases ha with rfl | rfl | rfl | rfl | rfl <;>
        rcases hb with rfl | rfl | rfl | rfl | rfl <;>
          first | rfl | exact absurd hleading (by decide)
    · obtain ⟨rest, hrest⟩ := head_escapeXmlByte ha
      rw [hrest, hwrite', List.cons_prefix_cons] at hleading
      exact absurd (hleading.1 ▸ List.mem_cons_self ..) hb
  · rcases escapeXmlByte_cases b with hb | ⟨hb, hwrite'⟩
    · obtain ⟨rest, hrest⟩ := head_escapeXmlByte hb
      rw [hwrite, hrest, List.cons_prefix_cons] at hleading
      exact absurd (hleading.1 ▸ List.mem_cons_self ..) ha
    · rw [hwrite, hwrite', List.cons_prefix_cons] at hleading
      exact hleading.1

/-- An escaped text has no quote and no bracket in it. -/
theorem delimited_escapeXml {delimiter : UInt8} (h : delimiter = 34 ∨ delimiter = 60) :
    Delimited delimiter escapeXml where
  injective a b heq := readable_escapeXmlByte.flatMap_injective (fun c hnil => by
    rcases escapeXmlByte_cases c with hc | ⟨-, hwrite⟩
    · obtain ⟨rest, hrest⟩ := head_escapeXmlByte hc
      rw [hrest] at hnil
      cases hnil
    · rw [hwrite] at hnil
      cases hnil) heq
  free value := (escaped_escapeXml value).free (by rcases h with rfl | rfl <;> decide)

theorem delimited_decimal : Delimited 34 decimal where
  injective _ _ h := decimal_injective h
  free n hmem := absurd (mem_decimal hmem).1 (by decide)

theorem delimited_kindTag : Delimited 34 NodeKind.tagName where
  injective a b h := by
    have hfind (k : NodeKind) :
        NodeKind.fields.find? (fun kind => kind.tagName = k.tagName) = some k := by
      cases k <;> decide
    have hab := hfind a
    rw [h, hfind b] at hab
    exact (Option.some.inj hab).symm
  free k := by cases k <;> decide

theorem delimited_lifecycleTag : Delimited 34 lifecycleTag where
  injective a b h := by cases a <;> cases b <;> first | rfl | exact absurd h (by decide)
  free a := by cases a <;> decide

theorem delimited_fileModeTag : Delimited 34 fileModeTag where
  injective a b h := by cases a <;> cases b <;> first | rfl | exact absurd h (by decide)
  free a := by cases a <;> decide

theorem delimited_artifactKindTag : Delimited 34 artifactKindTag where
  injective a b h := by cases a <;> cases b <;> first | rfl | exact absurd h (by decide)
  free a := by cases a <;> decide

theorem delimited_contentFormatTag : Delimited 34 contentFormatTag where
  injective a b h := by cases a <;> cases b <;> first | rfl | exact absurd h (by decide)
  free a := by cases a <;> decide

theorem delimited_followTail :
    Delimited 34 fun followTail : Bool => if followTail then ascii "true" else ascii "false" where
  injective a b h := by cases a <;> cases b <;> first | rfl | exact absurd h (by decide)
  free a := by cases a <;> decide

theorem readable_attributeXml (head : String) : Readable (attributeXml head) := by
  intro a b s t h
  rw [attributeXml, attributeXml, List.append_assoc, List.append_assoc, List.append_assoc,
    List.append_assoc] at h
  exact (delimited_escapeXml (.inl rfl)).read rfl (List.append_cancel_left h)

/-- A text that differs from the name of an attribute. -/
theorem ne_attributeXml {head : String} {s : Bytes} (i : Nat) (hi : i < (ascii head).length)
    (h : s[i]? ≠ (ascii head)[i]?) (a : Bytes) (u : Bytes) : s ≠ attributeXml head a ++ u := by
  rintro rfl
  rw [attributeXml, List.append_assoc, List.append_assoc, List.getElem?_append_left hi] at h
  exact h rfl

/-- What the second byte of a list of optional attributes can be. -/
theorem second_optional {n : String} {o : Option Bytes} {s : Bytes} {c : UInt8}
    (hhead : (ascii n)[1]? = some c) : (optional (attributeXml n) o ++ s)[1]? = some c ∨
      (optional (attributeXml n) o ++ s)[1]? = s[1]? := by
  cases o with
  | none => exact .inr rfl
  | some v =>
      left
      obtain ⟨hi, -⟩ := List.getElem?_eq_some_iff.mp hhead
      rw [Data.optional, attributeXml, List.append_assoc, List.append_assoc,
        List.getElem?_append_left hi, hhead]

/-- The end of the source of a tty or of an artifact. -/
theorem read_ids {windowId windowId' paneId paneId' : Option Bytes} {s t : Bytes}
    (h : optional (attributeXml " windowId=\"") windowId ++
        (optional (attributeXml " paneId=\"") paneId ++ (ascii "/>" ++ s)) =
      optional (attributeXml " windowId=\"") windowId' ++
        (optional (attributeXml " paneId=\"") paneId' ++ (ascii "/>" ++ t))) :
    windowId = windowId' ∧ paneId = paneId' ∧ s = t := by
  have hpane (o : Option Bytes) (u : Bytes) :
      (optional (attributeXml " paneId=\"") o ++ (ascii "/>" ++ u))[1]? ≠
        (ascii " windowId=\"")[1]? := by
    rcases second_optional (n := " paneId=\"") (o := o) (s := ascii "/>" ++ u) rfl with
      hbyte | hbyte <;> rw [hbyte]
    · decide
    · show some 62 ≠ _
      decide
  have hend (u : Bytes) : (ascii "/>" ++ u)[1]? ≠ (ascii " paneId=\"")[1]? := by
    show some 62 ≠ _
    decide
  obtain ⟨hwindow, h⟩ := (readable_attributeXml _).optional
    (ne_attributeXml 1 (by decide) (hpane _ _)) (ne_attributeXml 1 (by decide) (hpane _ _)) h
  obtain ⟨hpaneId, h⟩ := (readable_attributeXml _).optional (ne_attributeXml 1 (by decide) (hend _))
    (ne_attributeXml 1 (by decide) (hend _)) h
  exact ⟨hwindow, hpaneId, List.append_cancel_left h⟩

/-- The part of an artifact between its content format and its origin. -/
theorem readable_sections : Readable fun sections : TerminalArtifactSections =>
    (if sections.surface || sections.alternate then
      ascii "\" sections=\"" ++ writeArtifactSectionsXml sections
    else []) ++ ascii "\" origin=\"" := by
  refine readable_of_prefix fun ⟨surface, alternate⟩ ⟨surface', alternate'⟩ h => ?_
  cases surface <;> cases alternate <;> cases surface' <;> cases alternate' <;>
    first | rfl | exact absurd h (by decide)

/-- `SourceKind`. -/
inductive SourceKind where
  | none
  | tty
  | terminalArtifact
  | file

/-- `@tagName` of a source kind. -/
def sourceKindTag : SourceKind → Bytes
  | .none => ascii "none"
  | .tty => ascii "tty"
  | .terminalArtifact => ascii "terminal_artifact"
  | .file => ascii "file"

theorem delimited_sourceKindTag : Delimited 34 sourceKindTag where
  injective a b h := by cases a <;> cases b <;> first | rfl | exact absurd h (by decide)
  free a := by cases a <;> decide

/-- The kind of a source. -/
def sourceKind : Source → SourceKind
  | .none => .none
  | .tty _ => .tty
  | .terminalArtifact _ => .terminalArtifact
  | .file _ => .file

theorem writeSourceXml_kind (source : Source) : ∃ rest, writeSourceXml source =
    ascii "<source kind=\"" ++ (sourceKindTag (sourceKind source) ++ (ascii "\"" ++ rest)) := by
  have hsplit {tag text : Bytes} (more rest : Bytes)
      (heq : text = ascii "<source kind=\"" ++ (tag ++ (ascii "\"" ++ more))) :
      ∃ rest', text ++ rest = ascii "<source kind=\"" ++ (tag ++ (ascii "\"" ++ rest')) :=
    ⟨more ++ rest, by simp only [heq, List.append_assoc]⟩
  cases source with
  | none => exact ⟨ascii "/>", rfl⟩
  | tty tty =>
      simp only [writeSourceXml, List.append_assoc]
      exact hsplit [] _ rfl
  | terminalArtifact artifact =>
      simp only [writeSourceXml, List.append_assoc]
      exact hsplit (ascii " artifactKind=\"") _ rfl
  | file file =>
      simp only [writeSourceXml, List.append_assoc]
      exact hsplit (ascii " path=\"") _ rfl

theorem read_tty {tty tty' : TtySource} {s t : Bytes}
    (h : writeSourceXml (.tty tty) ++ s = writeSourceXml (.tty tty') ++ t) :
    tty = tty' ∧ s = t := by
  simp only [writeSourceXml, List.append_assoc] at h
  obtain ⟨hsession, h⟩ := (delimited_escapeXml (.inl rfl)).read rfl
    (List.append_cancel_left (List.append_cancel_left h))
  obtain ⟨hwindow, hpane, hst⟩ := read_ids h
  refine ⟨?_, hst⟩
  show (⟨tty.sessionName, tty.windowId, tty.paneId⟩ : TtySource) = ⟨tty'.sessionName, _, _⟩
  rw [hsession, hwindow, hpane]

theorem read_file {file file' : FileSource} {s t : Bytes}
    (h : writeSourceXml (.file file) ++ s = writeSourceXml (.file file') ++ t) :
    file = file' ∧ s = t := by
  simp only [writeSourceXml, List.append_assoc] at h
  obtain ⟨hpath, h⟩ := (delimited_escapeXml (.inl rfl)).read rfl (List.append_cancel_left h)
  obtain ⟨hmode, hst⟩ := delimited_fileModeTag.read rfl h
  refine ⟨?_, hst⟩
  show (⟨file.path, file.mode⟩ : FileSource) = ⟨file'.path, _⟩
  rw [hpath, hmode]

theorem read_artifact {artifact artifact' : TerminalArtifactSource} {s t : Bytes}
    (h : writeSourceXml (.terminalArtifact artifact) ++ s =
      writeSourceXml (.terminalArtifact artifact') ++ t) : artifact = artifact' ∧ s = t := by
  simp only [writeSourceXml, List.append_assoc] at h
  obtain ⟨hkind, h⟩ := delimited_artifactKindTag.read rfl (List.append_cancel_left h)
  have hsession (windowId paneId : Option Bytes) (u : Bytes) :
      (optional (attributeXml " windowId=\"") windowId ++
          (optional (attributeXml " paneId=\"") paneId ++ (ascii "/>" ++ u)))[1]? ≠
        (ascii " sessionName=\"")[1]? := by
    rcases second_optional (n := " windowId=\"") (o := windowId) rfl with hbyte | hbyte <;>
      rw [hbyte]
    · decide
    rcases second_optional (n := " paneId=\"") (o := paneId) rfl with hbyte | hbyte <;> rw [hbyte]
    · decide
    · show some 62 ≠ _
      decide
  have hhead (sections : TerminalArtifactSections) (u : Bytes) :
      ((if sections.surface || sections.alternate then
          ascii "\" sections=\"" ++ writeArtifactSectionsXml sections
        else []) ++ (ascii "\" origin=\"" ++ u)).head? = some 34 := by
    split <;> rfl
  obtain ⟨hformat, h⟩ := delimited_contentFormatTag.read_until (hhead ..) (hhead ..) h
  rw [← List.append_assoc, ← List.append_assoc _ (ascii "\" origin=\"")] at h
  obtain ⟨hsections, h⟩ := readable_sections h
  obtain ⟨hname, h⟩ := (readable_attributeXml _).optional
    (ne_attributeXml 1 (by decide) (hsession _ _ _)) (ne_attributeXml 1 (by decide) (hsession _ _ _))
    (List.append_cancel_left (List.append_cancel_left h))
  obtain ⟨hwindow, hpane, hst⟩ := read_ids h
  refine ⟨?_, hst⟩
  show (⟨artifact.artifactKind, artifact.contentFormat, artifact.sections, artifact.sessionName,
    artifact.windowId, artifact.paneId⟩ : TerminalArtifactSource) = ⟨artifact'.artifactKind, _, _,
      _, _, _⟩
  rw [hkind, hformat, hsections, hname, hwindow, hpane]

theorem readable_writeSourceXml : Readable writeSourceXml := by
  intro a b s t h
  have hkind : sourceKind a = sourceKind b := by
    obtain ⟨rest, ha⟩ := writeSourceXml_kind a
    obtain ⟨rest', hb⟩ := writeSourceXml_kind b
    rw [ha, hb] at h
    simp only [List.append_assoc] at h
    exact (delimited_sourceKindTag.read rfl (List.append_cancel_left h)).1
  cases a with
  | none =>
      cases b with
      | none => exact ⟨rfl, List.append_cancel_left h⟩
      | _ => cases hkind
  | tty tty =>
      cases b with
      | tty tty' =>
          obtain ⟨rfl, hst⟩ := read_tty h
          exact ⟨rfl, hst⟩
      | _ => cases hkind
  | terminalArtifact artifact =>
      cases b with
      | terminalArtifact artifact' =>
          obtain ⟨rfl, hst⟩ := read_artifact h
          exact ⟨rfl, hst⟩
      | _ => cases hkind
  | file file =>
      cases b with
      | file file' =>
          obtain ⟨rfl, hst⟩ := read_file h
          exact ⟨rfl, hst⟩
      | _ => cases hkind

/-- What the element of a node tells: everything but the backend id and the links. -/
def fields (n : Node) : Node := { n with parentId := none, children := [], backendId := none }

theorem tells_writeNodeXml : Tells fields writeNodeXml := by
  intro n m s t h
  simp only [writeNodeXml, List.append_assoc] at h
  obtain ⟨hid, h⟩ := delimited_decimal.read rfl (List.append_cancel_left h)
  obtain ⟨hkind, h⟩ := delimited_kindTag.read rfl h
  obtain ⟨hlifecycle, h⟩ := delimited_lifecycleTag.read rfl h
  obtain ⟨hfollow, h⟩ := delimited_followTail.read rfl h
  have hname (u : Bytes) : (ascii ">" ++ u)[0]? ≠ (ascii " name=\"")[0]? := by
    show some 62 ≠ _
    decide
  obtain ⟨hname, h⟩ := (readable_attributeXml _).optional (ne_attributeXml 0 (by decide) (hname _))
    (ne_attributeXml 0 (by decide) (hname _)) h
  obtain ⟨htitle, h⟩ := (delimited_escapeXml (.inr rfl)).read rfl
    (List.append_cancel_left (List.append_cancel_left h))
  obtain ⟨hsource, h⟩ := readable_writeSourceXml h
  obtain ⟨hcontent, hst⟩ := (delimited_escapeXml (.inr rfl)).read rfl (List.append_cancel_left h)
  refine ⟨?_, hst⟩
  simp only [fields, hid, hkind, htitle, hname, hcontent, hsource, hlifecycle, hfollow]

/-! ## The text tells the order -/

variable {d d' : Document} {order order' : List Nat}

/-- A walk that puts together what it makes of each node. -/
theorem walkPreorder_collect {α : Type} (h : d.Accepted order) (f : Node → List α) :
    d.walkPreorder (fun collected node => .ok (collected ++ f node)) []
      = .ok ((order.filterMap d.lookup).flatMap f) := by
  have hfold (xs : List Nat) (collected : List α) (hlive : ∀ x ∈ xs, ∃ n, d.lookup x = some n) :
      xs.foldlM (fun collected x => d.nodeOr x .unknownNode >>= fun node =>
        (Except.ok (collected ++ f node) : Except Failure (List α))) collected =
      .ok (collected ++ (xs.filterMap d.lookup).flatMap f) := by
    induction xs generalizing collected with
    | nil => simp [pure_eq_ok]
    | cons x xs ih =>
        obtain ⟨n, hn⟩ := hlive x (List.mem_cons_self ..)
        rw [List.foldlM_cons, Document.nodeOr_of_lookup hn, ok_bind, ok_bind,
          ih _ fun y hy => hlive y (List.mem_cons_of_mem _ hy), List.filterMap_cons_some hn,
          List.flatMap_cons, List.append_assoc]
  rw [h.walkPreorder_eq, hfold order [] fun x hx => h.live.mp hx, List.nil_append]

/-- The text of an accepted document. -/
theorem writeXml_eq (h : d.Accepted order) : writeXml d = .ok
    (ascii "<muxml id=\"" ++ (decimal d.id ++ (ascii "\" lifecycle=\"" ++
      (lifecycleTag d.lifecycle ++ (ascii "\">" ++ (ascii "<title>" ++ (escapeXml d.title ++
        (ascii "</title><nodes>" ++ ((order.filterMap d.lookup).flatMap writeNodeXml ++
          ascii "</nodes></muxml>"))))))))) := by
  rw [writeXml, walkPreorder_collect h, writeEscapedXml_eq]
  simp only [ok_bind, pure_eq_ok, List.append_assoc]

/-- The ids of the nodes of an order. -/
theorem map_id_filterMap (h : d.Accepted order) {xs : List Nat} (hsub : xs ⊆ order) :
    (xs.filterMap d.lookup).map Node.id = xs := by
  induction xs with
  | nil => rfl
  | cons x xs ih =>
      obtain ⟨n, hn⟩ := h.live.mp (hsub (List.mem_cons_self ..))
      rw [List.filterMap_cons_some hn, List.map_cons, h.id_eq hn,
        ih fun y hy => hsub (List.mem_cons_of_mem _ hy)]

/-- The fields of the nodes of an order. -/
theorem fields_eq_of_mem {xs : List Nat} (hlive : ∀ x ∈ xs, ∃ n, d.lookup x = some n)
    (hlive' : ∀ x ∈ xs, ∃ n, d'.lookup x = some n)
    (heq : (xs.filterMap d.lookup).map fields = (xs.filterMap d'.lookup).map fields) :
    ∀ x ∈ xs, (d.lookup x).map fields = (d'.lookup x).map fields := by
  induction xs with
  | nil => simp
  | cons x xs ih =>
      obtain ⟨n, hn⟩ := hlive x (List.mem_cons_self ..)
      obtain ⟨m, hm⟩ := hlive' x (List.mem_cons_self ..)
      rw [List.filterMap_cons_some hn, List.filterMap_cons_some hm, List.map_cons,
        List.map_cons] at heq
      obtain ⟨hhead, htail⟩ := List.cons_eq_cons.mp heq
      intro y hy
      rcases List.mem_cons.mp hy with rfl | hy
      · rw [hn, hm, Option.map_some, Option.map_some, hhead]
      · exact ih (fun z hz => hlive z (List.mem_cons_of_mem _ hz))
          (fun z hz => hlive' z (List.mem_cons_of_mem _ hz)) htail y hy

/-- What the text of a document tells, read from its beginning to its end. -/
theorem read_writeXml (h : d.Accepted order) (h' : d'.Accepted order')
    (heq : writeXml d = writeXml d') :
    d.id = d'.id ∧ d.lifecycle = d'.lifecycle ∧ d.title = d'.title ∧
      (order.filterMap d.lookup).map fields = (order'.filterMap d'.lookup).map fields := by
  rw [writeXml_eq h, writeXml_eq h', Except.ok.injEq] at heq
  obtain ⟨hid, heq⟩ := delimited_decimal.read rfl (List.append_cancel_left heq)
  obtain ⟨hlifecycle, heq⟩ := delimited_lifecycleTag.read rfl heq
  obtain ⟨htitle, heq⟩ := (delimited_escapeXml (.inr rfl)).read rfl (List.append_cancel_left heq)
  rw [← List.append_nil (ascii "</nodes></muxml>")] at heq
  have hstop (n : Node) (u v : Bytes) : ascii "</nodes></muxml>" ++ u ≠ writeNodeXml n ++ v := by
    intro hstart
    simp only [writeNodeXml, List.append_assoc] at hstart
    have hbyte : (some 47 : Option UInt8) = some 110 := congrArg (fun text => text[1]?) hstart
    exact absurd hbyte (by decide)
  obtain ⟨hfields, -⟩ := tells_writeNodeXml.flatMap hstop heq
  exact ⟨hid, hlifecycle, htitle, hfields⟩

/-- Two accepted documents with one text list the same nodes in the same order. -/
theorem order_eq_of_writeXml_eq (h : d.Accepted order) (h' : d'.Accepted order')
    (heq : writeXml d = writeXml d') :
    order = order' ∧ ∀ x, (d.lookup x).map fields = (d'.lookup x).map fields := by
  obtain ⟨-, -, -, hfields⟩ := read_writeXml h h' heq
  have hids := congrArg (List.map Node.id) hfields
  rw [List.map_map, List.map_map] at hids
  have horder : order = order' := by
    rw [← map_id_filterMap h (List.Subset.refl _), ← map_id_filterMap h' (List.Subset.refl _)]
    exact hids
  subst horder
  refine ⟨rfl, fun x => ?_⟩
  by_cases hx : x ∈ order
  · exact fields_eq_of_mem (fun x hx => h.live.mp hx) (fun x hx => h'.live.mp hx) hfields x hx
  · have hnone {d : Document} (h : d.Accepted order) : d.lookup x = none := by
      cases hl : d.lookup x with
      | none => rfl
      | some n => exact absurd (h.live.mpr ⟨n, hl⟩) hx
    rw [hnone h, hnone h']

/-! ## The text and the tree -/

/-- A document as the store holds them: a slot holds the node of its number, and `validate` accepts
it. -/
structure Validated (d : Document) : Prop where
  id_eq : ∀ {x n}, d.lookup x = some n → n.id = x
  accepted : ∃ summary, d.validate = .ok summary

theorem validated_iff : Validated d ↔ ∃ order, d.Accepted order := by
  constructor
  · rintro ⟨hid, summary, hvalidate⟩
    exact Document.exists_accepted hid hvalidate
  · rintro ⟨order, h⟩
    exact ⟨h.id_eq, _, h.validate_ok⟩

theorem validated_of_valid (hv : d.Valid) : Validated d := ⟨hv.shape.id_eq, _, hv.validate_ok⟩

/-- The same nodes, with the same parents and the same children in the same order. The backend id
has no place in the text. -/
def SameTree (d d' : Document) : Prop :=
  ∀ x, (d.lookup x).map (fun n => { n with backendId := none }) =
    (d'.lookup x).map fun n => { n with backendId := none }

theorem SameTree.childrenOf_eq (h : SameTree d d') (x : Nat) : d.childrenOf x = d'.childrenOf x := by
  have hx := congrArg (Option.map Node.children) (h x)
  simp only [Option.map_map] at hx
  exact congrArg (fun children => children.getD []) hx

/-- Other links do not change the text. -/
theorem writeXml_relinked {parent : Nat → Option Nat} {children : Nat → List Nat}
    (h : d.Accepted order) (h' : (d.relinked parent children).Accepted order) :
    writeXml (d.relinked parent children) = writeXml d := by
  have hnodes : (order.filterMap (d.relinked parent children).lookup).flatMap writeNodeXml =
      (order.filterMap d.lookup).flatMap writeNodeXml := by
    rw [show (d.relinked parent children).lookup = _ from funext Document.lookup_relinked,
      ← List.map_filterMap, List.flatMap_map]
    rfl
  rw [writeXml_eq h, writeXml_eq h', hnodes]
  rfl

theorem rootNodeId_eq {r : Nat} {rest : List Nat} (h : d.Accepted (r :: rest)) :
    d.rootNodeId = r := by
  obtain ⟨_, heq, -⟩ := h.walk.of_singleton
  exact (List.head_eq_of_cons_eq heq).symm

/-- All other nodes below the root. -/
theorem accepted_flat {r : Nat} {rest : List Nat} (h : d.Accepted (r :: rest)) :
    (d.relinked (fun x => if x = r then none else some r)
      (fun x => if x = r then rest else [])).Accepted (r :: rest) := by
  obtain ⟨hr, hnodup⟩ := List.nodup_cons.mp h.nodup
  have hroot := rootNodeId_eq h
  refine h.relinked ?_ ?_ ?_ ?_ ?_
  · rw [hroot]
    refine .cons ?_
    rw [if_pos rfl, List.append_nil]
    exact Walk.of_leaves fun x hx => if_neg fun heq : x = r => hr (heq ▸ hx)
  · rw [hroot, if_pos rfl]
  · intro x hx hne
    rw [hroot] at hne
    refine ⟨r, List.mem_cons_self .., if_neg hne, ?_⟩
    rw [if_pos rfl]
    exact (List.mem_cons.mp hx).resolve_left hne
  · intro x hx c hc
    split at hc
    · rename_i heq
      rw [heq]
      exact if_neg fun heq : c = r => hr (heq ▸ hc)
    · cases hc
  · intro x hx
    split
    · exact hnodup
    · exact List.nodup_nil

/-- The third node below the second one, all others below the root. -/
theorem accepted_nested {r b c : Nat} {rest : List Nat} (h : d.Accepted (r :: b :: c :: rest)) :
    (d.relinked (fun x => if x = r then none else if x = c then some b else some r)
      (fun x => if x = r then b :: rest else if x = b then [c] else [])).Accepted
        (r :: b :: c :: rest) := by
  obtain ⟨hr, hnodup⟩ := List.nodup_cons.mp h.nodup
  obtain ⟨hb, hnodup⟩ := List.nodup_cons.mp hnodup
  obtain ⟨hc, hnodup⟩ := List.nodup_cons.mp hnodup
  have hnotRoot : ∀ x ∈ b :: c :: rest, x ≠ r := fun x hx => ne_of_mem_of_not_mem hx hr
  have hnotSecond : ∀ x ∈ c :: rest, x ≠ b := fun x hx => ne_of_mem_of_not_mem hx hb
  have hbr : b ≠ r := hnotRoot b (by simp)
  have hcr : c ≠ r := hnotRoot c (by simp)
  have hcb : c ≠ b := hnotSecond c (by simp)
  have hroot := rootNodeId_eq h
  refine h.relinked ?_ ?_ ?_ ?_ ?_
  · -- The walk pops the root, then `b` with `c` below it, then the leaves.
    rw [hroot]
    refine .cons ?_
    rw [if_pos rfl, List.append_nil]
    refine .cons ?_
    rw [if_neg hbr, if_pos rfl]
    refine Walk.of_leaves fun x hx => ?_
    rw [if_neg (hnotRoot x (List.mem_cons_of_mem _ hx)), if_neg (hnotSecond x hx)]
  · rw [hroot, if_pos rfl]
  · intro x hx hne
    rw [hroot] at hne
    rw [if_neg hne]
    by_cases hxc : x = c
    · refine ⟨b, by simp, by rw [if_pos hxc], ?_⟩
      rw [if_neg hbr, if_pos rfl, hxc]
      exact List.mem_singleton_self c
    · refine ⟨r, List.mem_cons_self .., by rw [if_neg hxc], ?_⟩
      rw [if_pos rfl]
      simpa [hne, hxc] using hx
  · intro x hx y hy
    split at hy
    · rename_i heq
      have hyr : y ≠ r := hnotRoot y (by
        rcases List.mem_cons.mp hy with rfl | hy
        · exact List.mem_cons_self ..
        · exact List.mem_cons_of_mem _ (List.mem_cons_of_mem _ hy))
      have hyc : y ≠ c := by
        rcases List.mem_cons.mp hy with rfl | hy
        · exact hcb.symm
        · exact ne_of_mem_of_not_mem hy hc
      rw [if_neg hyr, if_neg hyc, heq]
    · split at hy
      · rename_i heq
        cases List.mem_singleton.mp hy
        rw [if_neg hcr, if_pos rfl, heq]
      · cases hy
  · intro x hx
    split
    · exact hnodup.cons fun hmem => hb (List.mem_cons_of_mem _ hmem)
    · split
      · exact List.nodup_singleton c
      · exact List.nodup_nil

/-- The links of a document with one node or two. -/
theorem links_of_length_le_two (h : d.Accepted order) (hlength : order.length ≤ 2) {x : Nat}
    {n : Node} (hx : d.lookup x = some n) :
    n.parentId = (if order.head? = some x then none else order.head?) ∧
      n.children = (if order.head? = some x then order.tail else []) := by
  have hmem := h.live.mpr ⟨n, hx⟩
  have hid := h.id_eq hx
  have hnodup := h.nodup
  rw [← Document.childrenOf_eq hx]
  obtain ⟨rest, rfl, hwalk⟩ := h.walk.of_singleton
  match rest, hlength with
  | [], _ =>
      cases List.mem_singleton.mp hmem
      rw [hwalk.to_nil]
      exact ⟨by simpa using ((h.hangs hx).root hid).1, by simp⟩
  | [b], _ =>
      obtain ⟨hroot, hb⟩ := hwalk.to_singleton
      have hne : d.rootNodeId ≠ b := by simpa using hnodup
      rcases List.mem_cons.mp hmem with rfl | hmem
      · rw [hroot]
        exact ⟨by simpa using ((h.hangs hx).root hid).1, by simp⟩
      · cases List.mem_singleton.mp hmem
        obtain ⟨r, hr⟩ := h.live.mp h.root_mem
        have hmem : x ∈ r.children := by
          rw [← Document.childrenOf_eq hr, hroot]
          exact List.mem_singleton_self x
        obtain ⟨m, hm, hparent⟩ := (h.hangs hr).child x hmem
        rw [hx] at hm
        cases hm
        rw [hb, hparent, h.id_eq hr]
        simp [hne]

/-- Of three nodes and more there are two trees with the same text: the third node may hang below
the root or below the second one. -/
theorem not_sameTree_of_three {r b c : Nat} {rest : List Nat}
    (hd : d.Accepted (r :: b :: c :: rest)) :
    ¬ ∀ d', Validated d' → writeXml d' = writeXml d → SameTree d d' := by
  intro hsame
  have hflat := accepted_flat hd
  have hnested := accepted_nested hd
  have hsameFlat := hsame _ (validated_iff.mpr ⟨_, hflat⟩) (writeXml_relinked hd hflat)
  have hsameNested := hsame _ (validated_iff.mpr ⟨_, hnested⟩) (writeXml_relinked hd hnested)
  have hchildren := (hsameFlat.childrenOf_eq r).symm.trans (hsameNested.childrenOf_eq r)
  obtain ⟨n, hn⟩ := hd.live.mp (List.mem_cons_self ..)
  simp [Document.childrenOf, Document.lookup_relinked, hn, hd.id_eq hn] at hchildren

/-- The listing and the fields of one node or two are the whole tree. -/
theorem sameTree_of_length_le_two {d d' : Document} (hd : d.Accepted order)
    (hlength : order.length ≤ 2) (h' : Validated d') (heq : writeXml d' = writeXml d) :
    SameTree d d' := by
  intro x
  obtain ⟨order', hd'⟩ := validated_iff.mp h'
  obtain ⟨rfl, hfields⟩ := order_eq_of_writeXml_eq hd hd' heq.symm
  have hx := hfields x
  cases hl : d.lookup x with
  | none =>
      rw [hl, Option.map_none, eq_comm, Option.map_eq_none_iff] at hx
      rw [hx]
  | some n =>
      rw [hl, Option.map_some, eq_comm, Option.map_eq_some_iff] at hx
      obtain ⟨m, hm, hsame⟩ := hx
      obtain ⟨hparent, hchildren⟩ := links_of_length_le_two hd hlength hl
      obtain ⟨hparent', hchildren'⟩ := links_of_length_le_two hd' hlength hm
      have hlinks := congrArg (fun node : Node =>
        { node with parentId := n.parentId, children := n.children }) hsame
      rw [hm, Option.map_some, Option.map_some, hparent', ← hparent, hchildren', ← hchildren]
      exact congrArg some hlinks.symm

/-- The text of a document tells its tree exactly when at most one node hangs below the root. -/
theorem serialization_preserves_hierarchy (h : Validated d) :
    (∀ d', Validated d' → writeXml d' = writeXml d → SameTree d d') ↔ d.liveNodeCount ≤ 2 := by
  obtain ⟨order, hd⟩ := validated_iff.mp h
  rw [← hd.count]
  constructor
  · intro hsame
    by_contra hlong
    match order, hd, hlong with
    | r :: b :: c :: rest, hd, _ => exact not_sameTree_of_three hd hsame
    | [], _, hlong => exact absurd (Nat.zero_le _) hlong
    | [_], _, hlong => exact absurd (by simp) hlong
    | [_, _], _, hlong => exact absurd (by simp) hlong
  · exact fun hlength d' h' heq => sameTree_of_length_le_two hd hlength h' heq

theorem serialization_preserves_hierarchy_init :
    Validated (Document.init 1 (ascii "demo")) ∧
      ∀ d', Validated d' → writeXml d' = writeXml (Document.init 1 (ascii "demo")) →
        SameTree (Document.init 1 (ascii "demo")) d' :=
  have h := validated_of_valid (Document.valid_init 1 (ascii "demo"))
  ⟨h, (serialization_preserves_hierarchy h).mpr (by decide)⟩

/-- Two nodes are appended to an empty document, the second one below `parentId`. -/
def twoNodes (parentId : Nat) : Document :=
  (Document.appendNode parentId .textLeaf (ascii "b") .none
    (Document.appendNode 1 .container (ascii "a") .none (Document.init 1 (ascii "demo"))).2).2

theorem validated_twoNodes (parentId : Nat) : Validated (twoNodes parentId) := by
  have hfirst := (Document.appendNode_sound 1 .container (ascii "a") .none _
    (Document.valid_init 1 (ascii "demo"))).1
  exact validated_of_valid (Document.appendNode_sound parentId .textLeaf (ascii "b") .none _ hfirst).1

/-- A chain of three nodes and a node with two children have the same text. -/
theorem chain_and_fork_serialize_alike :
    Validated (twoNodes 2) ∧ Validated (twoNodes 1) ∧ writeXml (twoNodes 2) = writeXml (twoNodes 1) ∧
      ¬SameTree (twoNodes 2) (twoNodes 1) := by
  refine ⟨validated_twoNodes 2, validated_twoNodes 1, by rfl, fun h => ?_⟩
  exact absurd (h.childrenOf_eq 1) (by decide)

/-! ## The text and the fields -/

/-- What the text is to tell of the nodes, in preorder. -/
def preorderFields (d : Document) : Except Failure (List Node) :=
  d.walkPreorder (fun nodes node => .ok (nodes ++ [fields node])) []

theorem preorderFields_eq (h : d.Accepted order) :
    preorderFields d = .ok ((order.filterMap d.lookup).map fields) := by
  rw [preorderFields, walkPreorder_collect h fun node => [fields node], ← List.map_eq_flatMap]

/-- Every document has a text, and two documents with one text agree in the id, the lifecycle and
the title and in the fields of their nodes in preorder; no content of a field writes a delimiter; and
the two escape functions agree. -/
theorem writeXml_tells_fields :
    (∀ d, Validated d → ∃ text, writeXml d = .ok text) ∧
    (∀ d d', Validated d → Validated d' → writeXml d = writeXml d' →
      d.id = d'.id ∧ d.lifecycle = d'.lifecycle ∧ d.title = d'.title ∧
      ∃ nodes, preorderFields d = .ok nodes ∧ preorderFields d' = .ok nodes) ∧
    (∀ value, Escaped (escapeXml value) ∧
      ∀ delimiter ∈ ([60, 62, 34, 39] : Bytes), delimiter ∉ escapeXml value) ∧
    ∀ value, writeEscapedXml value = escapeXml value := by
  refine ⟨fun d h => ?_, fun d d' h h' heq => ?_, fun value => ?_, writeEscapedXml_eq⟩
  · obtain ⟨order, hd⟩ := validated_iff.mp h
    exact ⟨_, writeXml_eq hd⟩
  · obtain ⟨order, hd⟩ := validated_iff.mp h
    obtain ⟨order', hd'⟩ := validated_iff.mp h'
    obtain ⟨hid, hlifecycle, htitle, hfields⟩ := read_writeXml hd hd' heq
    refine ⟨hid, hlifecycle, htitle, _, preorderFields_eq hd, ?_⟩
    rw [hfields]
    exact preorderFields_eq hd'
  · exact ⟨escaped_escapeXml value, fun delimiter h => (escaped_escapeXml value).free h⟩

/-- Two documents with one text, though not with the same links. -/
theorem writeXml_tells_fields_twoNodes : (twoNodes 2).title = (twoNodes 1).title ∧
    ∃ nodes, preorderFields (twoNodes 2) = .ok nodes ∧ preorderFields (twoNodes 1) = .ok nodes := by
  have htext : writeXml (twoNodes 2) = writeXml (twoNodes 1) := by rfl
  exact (writeXml_tells_fields.2.1 _ _ (validated_twoNodes 2) (validated_twoNodes 1) htext).2.2

end Muxly.Daemon
