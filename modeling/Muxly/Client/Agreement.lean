/-
# Muxly.Client.Agreement -- where the client and the daemon resolve a selector alike

A client takes a direct reference as it is; the daemon checks that the node is live. So the two
agree exactly when the walk of the selector never leaves the live nodes, or leaves them and does not
reach its end. The client works on a flat list of JSON objects; `Reads` says that the list stands
for the document, and every other function of the client is compared through it.
-/
import Mathlib.Init
import Muxly.Client.Selector
import Muxly.Core.Topology
import Muxly.Daemon.StoreRuns

namespace Muxly.Client

open Muxly.Control Muxly.Core Muxly.Daemon Muxly.Tree

/-! ## Where a selector leads -/

/-- A segment that stays where it is. -/
def Stays (segment : Bytes) : Prop := segment = [] ∨ segment = ascii "."

instance (segment : Bytes) : Decidable (Stays segment) := inferInstanceAs (Decidable (_ ∨ _))

/-- A segment that is a direct reference or a name. -/
structure Plain (segment : Bytes) : Prop where
  moves : ¬ Stays segment
  down : segment ≠ ascii ".."

/-- A segment leads from one id to another. A direct reference leads to its id, live or not. -/
inductive Leads (d : Document) : Nat → Bytes → Nat → Prop
  | stay {x : Nat} {segment : Bytes} : Stays segment → Leads d x segment x
  | parent {x p : Nat} {n : Node} : d.lookup x = some n → n.parentId = some p →
      Leads d x (ascii "..") p
  | direct {x y : Nat} {segment : Bytes} : Plain segment →
      parseDirectNodeReference segment = some y → Leads d x segment y
  | child {x y : Nat} {segment : Bytes} : Plain segment →
      parseDirectNodeReference segment = none → d.Matched x segment y → Leads d x segment y

/-- The segments lead from one id to another. -/
inductive Walk (d : Document) : Nat → List Bytes → Nat → Prop
  | nil (x : Nat) : Walk d x [] x
  | cons {x y z : Nat} {segment : Bytes} {rest : List Bytes} : Leads d x segment y →
      Walk d y rest z → Walk d x (segment :: rest) z

/-- On its way along the segments the walk first leaves the live nodes at `y`, with `rest` ahead. -/
inductive Strays (d : Document) : Nat → List Bytes → Nat → List Bytes → Prop
  | here {x y : Nat} {segment : Bytes} {rest : List Bytes} : Leads d x segment y →
      d.lookup y = none → Strays d x (segment :: rest) y rest
  | later {x z y : Nat} {segment : Bytes} {more rest : List Bytes} : Leads d x segment z →
      d.lookup z ≠ none → Strays d z more y rest → Strays d x (segment :: more) y rest

/-- The segments of a selector. -/
def segmentsOf (selector : Option Bytes) : List Bytes := (selector.getD []).splitOn slash

/-- Where the walk of a selector leaves the live nodes, it is not at id 0 and does not reach the end
of the selector. -/
def Harmless (d : Document) (selector : Option Bytes) : Prop :=
  ∀ y rest, Strays d d.rootNodeId (segmentsOf selector) y rest → y ≠ 0 ∧ ¬ ∃ z, Walk d y rest z

/-- The same node id, or an error on both sides. A panic is neither. -/
def Agree (daemon client : Except Failure Nat) : Prop :=
  (∃ x, daemon = .ok x ∧ client = .ok x) ∨
    ∃ e e', daemon = .error (.error e) ∧ client = .error (.error e')

/-! ## What the client reads -/

theorem get_id (n : Node) : (writeNodeJson n).get (ascii "id") = some (jsonNumber n.id) := rfl

theorem get_name (n : Node) : (writeNodeJson n).get (ascii "name") = n.name.map jsonString := by
  rw [writeNodeJson]
  cases n.name with
  | none => cases n.parentId <;> rfl
  | some name => rfl

theorem get_children (n : Node) :
    (writeNodeJson n).get (ascii "children") = some (.array (n.children.map jsonNumber)) := by
  rw [writeNodeJson]
  cases n.name <;> rfl

theorem get_parentId (n : Node) :
    (writeNodeJson n).get (ascii "parentId") = n.parentId.map jsonNumber := by
  rw [writeNodeJson]
  cases n.name <;> cases n.parentId <;> rfl

/-- A number that fits is read back. -/
theorem intCast_ofNat {n : Nat} (h : n < i64Limit) : intCast u64Limit (Int64.ofNat n).toInt = .ok n := by
  have hlimit : i64Limit < u64Limit := by decide
  rw [Int64.toInt_ofNat_of_lt h, intCast, if_pos ⟨by omega, by omega⟩]
  rfl

theorem decimalInt_ofNat {n : Nat} (h : n < i64Limit) :
    decimalInt (Int64.ofNat n).toInt = decimal n := by
  rw [Int64.toInt_ofNat_of_lt h, decimalInt, if_neg (by omega)]
  rfl

/-- The JSON of a live node. -/
def nodeJsonAt (d : Document) (x : Nat) : Option JsonValue := (d.lookup x).map writeNodeJson

section Reading

variable {d : Document} (hv : Document.Valid d) (hslots : d.nodeSlots.length < i64Limit)

include hv in
/-- The list of nodes that `document.get` writes. -/
theorem walkPreorder_json :
    d.walkPreorder (fun nodes node => .ok (nodes ++ [writeNodeJson node])) []
      = .ok ((hv.shape.forest.preorder 1).filterMap (nodeJsonAt d)) := by
  rw [hv.shape.walkPreorder_eq]
  suffices hfold : ∀ (xs : List Nat) (acc : List JsonValue), (∀ x ∈ xs, ∃ n, d.lookup x = some n) →
      xs.foldlM (fun s x => d.nodeOr x .unknownNode >>= fun node =>
        (.ok (s ++ [writeNodeJson node]) : Except Failure (List JsonValue))) acc
        = .ok (acc ++ xs.filterMap (nodeJsonAt d)) by
    exact hfold _ [] fun x hx => hv.mem_preorder_root.mp hx
  intro xs
  induction xs with
  | nil =>
      intro acc _
      simp [pure_eq_ok]
  | cons x rest ih =>
      intro acc hlive
      obtain ⟨n, hn⟩ := hlive x (List.mem_cons_self ..)
      have hx : nodeJsonAt d x = some (writeNodeJson n) := by rw [nodeJsonAt, hn]; rfl
      rw [List.foldlM_cons, Document.nodeOr_of_lookup hn, ok_bind, ok_bind,
        ih _ fun y hy => hlive y (List.mem_cons_of_mem _ hy), List.filterMap_cons_some hx,
        List.append_assoc]
      rfl

include hslots in
theorem id_lt {x : Nat} {n : Node} (hx : d.lookup x = some n) : x < i64Limit :=
  Nat.lt_of_le_of_lt (Document.lookup_le hx) hslots

include hv hslots in
/-- The scan of the flat list finds a node exactly when it is live. -/
theorem findNodeObject_eq (x : Nat) :
    findNodeObject ((hv.shape.forest.preorder 1).filterMap (nodeJsonAt d)) x
      = .ok (nodeJsonAt d x) := by
  have hscan : ∀ xs : List Nat, (∀ y ∈ xs, ∃ n, d.lookup y = some n) →
      findNodeObject (xs.filterMap (nodeJsonAt d)) x
        = .ok (if x ∈ xs then nodeJsonAt d x else none) := by
    intro xs
    induction xs with
    | nil => exact fun _ => rfl
    | cons y rest ih =>
        intro hlive
        obtain ⟨n, hn⟩ := hlive y (List.mem_cons_self ..)
        have hy : nodeJsonAt d y = some (writeNodeJson n) := by rw [nodeJsonAt, hn]; rfl
        have hid : n.id = y := hv.shape.id_eq hn
        have hlt := id_lt hslots hn
        rw [List.filterMap_cons_some hy, findNodeObject, List.findM?]
        simp only [get_id, hid, jsonNumber_of_lt hlt, intCast_ofNat hlt, ok_bind, pure_eq_ok]
        by_cases hxy : y = x
        · subst hxy
          simp [hy]
        · have hrest := ih fun z hz => hlive z (List.mem_cons_of_mem _ hz)
          rw [beq_eq_false_iff_ne.mpr hxy]
          have hmem : (x ∈ y :: rest) = (x ∈ rest) := by simp [Ne.symm hxy]
          simp only [hmem]
          exact hrest
  rw [hscan _ fun y hy => hv.mem_preorder_root.mp hy]
  split
  · rfl
  · rename_i hdead
    cases hx : d.lookup x with
    | none => rw [nodeJsonAt, hx]; rfl
    | some n => exact absurd (hv.mem_preorder_root.mpr ⟨n, hx⟩) hdead

/-- The flat list stands for the document. -/
def Reads (nodes : List JsonValue) (d : Document) : Prop :=
  ∀ x, findNodeObject nodes x = .ok (nodeJsonAt d x)

/-- A byte of a name is ASCII. -/
theorem nameByte_lt {c : UInt8} (h : isValidNodeNameByte c = true) : c < 0x80 := by
  have hall : ∀ n < 256, isValidNodeNameByte (UInt8.ofNat n) = true → n < 128 := by
    decide +kernel
  have hlt := hall c.toNat c.toNat_lt (by rwa [UInt8.ofNat_toNat])
  exact UInt8.lt_iff_toNat_lt.mpr hlt

variable (htidy : Document.Tidy d) {nodes : List JsonValue} (hnodes : Reads nodes d)

include hv hslots htidy in
theorem nodeMatchesSegment_eq {x : Nat} {n : Node} (hx : d.lookup x = some n) (segment : Bytes) :
    nodeMatchesSegment (writeNodeJson n) segment = Document.nodeMatchesSegment n segment := by
  have hid : n.id = x := hv.shape.id_eq hx
  have hlt := id_lt hslots hx
  rw [nodeMatchesSegment, get_name, get_id, hid, jsonNumber_of_lt hlt, Document.nodeMatchesSegment,
    hid, Bool.or_assoc, ← decimalInt_ofNat hlt]
  cases hname : n.name with
  | none => rfl
  | some name =>
      have hbytes := (htidy x n hx).nameBytes name hname
      rw [Option.map_some, jsonString_of_ascii fun c hc => nameByte_lt (hbytes c hc)]
      rfl

include hv hslots htidy hnodes in
theorem matchedChildren_eq (segment : Bytes) (children : List Nat)
    (hlive : ∀ y ∈ children, ∃ n, d.lookup y = some n) :
    matchedChildren nodes segment (children.map jsonNumber)
      = .ok (children.filter (d.matchesAt · segment)) := by
  induction children with
  | nil => rfl
  | cons y rest ih =>
      obtain ⟨n, hn⟩ := hlive y (List.mem_cons_self ..)
      have hlt := id_lt hslots hn
      have hjson : nodeJsonAt d y = some (writeNodeJson n) := by rw [nodeJsonAt, hn]; rfl
      have hmatch := nodeMatchesSegment_eq hv hslots htidy hn segment
      have hat : d.matchesAt y segment = Document.nodeMatchesSegment n segment := by
        rw [Document.matchesAt, hn]
        rfl
      rw [List.map_cons, matchedChildren, ih fun z hz => hlive z (List.mem_cons_of_mem _ hz),
        jsonNumber_of_lt hlt, matchedChild, intCast_ofNat hlt, ok_bind, hnodes y, hjson, ok_bind,
        List.filter_cons, hat]
      simp only [hmatch, pure_eq_ok, ok_bind]
      cases Document.nodeMatchesSegment n segment <;> rfl

include hv hslots htidy hnodes in
/-- The two searches among the children of a live node are one. -/
theorem resolveChildBySegment_eq {x : Nat} {n : Node} (hx : d.lookup x = some n) (segment : Bytes) :
    resolveChildBySegment nodes x segment = d.resolveChildBySegment x segment := by
  have hjson : nodeJsonAt d x = some (writeNodeJson n) := by rw [nodeJsonAt, hx]; rfl
  have hlive : ∀ y ∈ n.children, ∃ m, d.lookup y = some m := fun y hy =>
    (hv.shape.child hx hy).imp fun _ => And.left
  rw [resolveChildBySegment, hnodes x, hjson, ok_bind, Document.resolveChildBySegment,
    Document.nodeOr_of_lookup hx, ok_bind,
    filterM_ok (g := fun z => d.matchesAt z segment) (fun z hz => by
      obtain ⟨m, hm⟩ := hlive z hz
      rw [Document.findNode_of_ne_zero (Document.lookup_pos hm), hm, Document.matchesAt, hm]
      rfl), ok_bind]
  simp only [get_children]
  rw [matchedChildren_eq hv hslots htidy hnodes segment n.children hlive]
  exact ok_bind ..

include hv hslots htidy hnodes in
/-- From a live node the two read a segment the same way, unless it is a direct reference to a node
that is not live. -/
theorem resolveSegment_eq {x : Nat} {n : Node} (hx : d.lookup x = some n) (segment : Bytes)
    (hdirect : ∀ y, Plain segment → parseDirectNodeReference segment = some y →
      ∃ m, d.lookup y = some m) :
    resolveSegment nodes x segment = d.resolveSegment x segment := by
  rw [resolveSegment, Document.resolveSegment]
  by_cases hstay : segment = [] ∨ segment = ascii "."
  · simp only [if_pos hstay]
  · simp only [if_neg hstay]
    by_cases hup : segment = ascii ".."
    · have hjson : nodeJsonAt d x = some (writeNodeJson n) := by rw [nodeJsonAt, hx]; rfl
      simp only [if_pos hup, hnodes x, hjson, ok_bind, get_parentId, Document.nodeOr_of_lookup hx]
      cases hp : n.parentId with
      | none => rfl
      | some p =>
          obtain ⟨m, hm, -⟩ := hv.linked hx hp
          have hlt := id_lt hslots hm
          simp only [Option.map_some, jsonNumber_of_lt hlt, intCast_ofNat hlt]
          rfl
    · simp only [if_neg hup]
      have hplain : Plain segment := ⟨hstay, hup⟩
      rw [parseDirectNodeReference]
      cases hparse : Document.parseDirectNodeReference segment with
      | none => exact resolveChildBySegment_eq hv hslots htidy hnodes hx segment
      | some y =>
          obtain ⟨m, hm⟩ := hdirect y hplain hparse
          simp only [Document.nodeOr_of_lookup hm, ok_bind]

/-! ## Both walks -/

include hv in
/-- The search among the children of a live node goes by how many of them match. -/
theorem resolveChildBySegment_filter {x : Nat} {n : Node} (hx : d.lookup x = some n)
    (segment : Bytes) : d.resolveChildBySegment x segment
      = match n.children.filter (d.matchesAt · segment) with
        | [] => throw (.error .unknownResourceSelectorSegment)
        | [matchedId] => pure matchedId
        | _ => throw (.error .ambiguousResourceSelector) := by
  rw [Document.resolveChildBySegment, Document.nodeOr_of_lookup hx, ok_bind,
    filterM_ok (g := fun z => d.matchesAt z segment) (fun z hz => by
      obtain ⟨m, hm, -⟩ := hv.shape.child hx hz
      rw [Document.findNode_of_ne_zero (Document.lookup_pos hm), hm, Document.matchesAt, hm]
      rfl)]
  exact ok_bind ..

include hv in
/-- What the search among the children of a live node finds. -/
theorem child_cases {x : Nat} {n : Node} (hx : d.lookup x = some n) (segment : Bytes) :
    (∃ y, d.Matched x segment y ∧ d.resolveChildBySegment x segment = .ok y) ∨
      ∃ e, (∀ y, ¬ d.Matched x segment y) ∧
        d.resolveChildBySegment x segment = .error (.error e) := by
  have hmem : ∀ z, z ∈ n.children.filter (d.matchesAt · segment) ↔
      z ∈ d.childrenOf x ∧ d.matchesAt z segment = true := by
    intro z
    rw [List.mem_filter, Document.childrenOf_eq hx]
  have hnodup : (n.children.filter (d.matchesAt · segment)).Nodup := (hv.shape.nodup hx).filter _
  -- One match is the answer; with none or with two the search fails.
  rw [resolveChildBySegment_filter hv hx]
  generalize n.children.filter (d.matchesAt · segment) = found at hmem hnodup ⊢
  rcases found with _ | ⟨y, _ | ⟨z, rest⟩⟩
  · refine .inr ⟨_, fun y hy => ?_, rfl⟩
    exact absurd ((hmem y).mpr ⟨hy.child, hy.named⟩) (List.not_mem_nil)
  · have hy := (hmem y).mp (List.mem_singleton_self y)
    refine .inl ⟨y, ⟨hy.1, hy.2, fun z hz hseg => ?_⟩, rfl⟩
    exact List.mem_singleton.mp ((hmem z).mpr ⟨hz, hseg⟩)
  · refine .inr ⟨_, fun w hw => ?_, rfl⟩
    have hy := (hmem y).mp (List.mem_cons_self ..)
    have hz := (hmem z).mp (List.mem_cons_of_mem _ (List.mem_cons_self ..))
    have hyz : y = z := (hw.only y hy.1 hy.2).trans (hw.only z hz.1 hz.2).symm
    exact (List.nodup_cons.mp hnodup).1 (hyz ▸ List.mem_cons_self ..)

theorem not_stays_up : ¬ Stays (ascii "..") := by decide

/-- A segment leads to one id at most. -/
theorem Leads.unique {x y z : Nat} {segment : Bytes} (hy : Leads d x segment y)
    (hz : Leads d x segment z) : y = z := by
  cases hy with
  | stay hstay =>
      cases hz with
      | stay _ => rfl
      | parent _ _ => exact absurd hstay not_stays_up
      | direct hplain _ => exact absurd hstay hplain.moves
      | child hplain _ _ => exact absurd hstay hplain.moves
  | parent hx hp =>
      cases hz with
      | stay hstay => exact absurd hstay not_stays_up
      | parent hx' hp' =>
          rw [hx] at hx'
          cases hx'
          exact Option.some.inj (hp.symm.trans hp')
      | direct hplain _ => exact absurd rfl hplain.down
      | child hplain _ _ => exact absurd rfl hplain.down
  | direct hplain hparse =>
      cases hz with
      | stay hstay => exact absurd hstay hplain.moves
      | parent _ _ => exact absurd rfl hplain.down
      | direct _ hparse' => exact Option.some.inj (hparse.symm.trans hparse')
      | child _ hparse' _ =>
          rw [hparse] at hparse'
          cases hparse'
  | child hplain hparse hmatched =>
      cases hz with
      | stay hstay => exact absurd hstay hplain.moves
      | parent _ _ => exact absurd rfl hplain.down
      | direct _ hparse' =>
          rw [hparse] at hparse'
          cases hparse'
      | child _ _ hmatched' => exact (hmatched'.only y hmatched.child hmatched.named)

include hv hslots htidy hnodes in
/-- The client follows a segment wherever it leads, and answers with an error if it leads nowhere. -/
theorem resolveSegment_cases (x : Nat) (segment : Bytes) :
    (∃ y, Leads d x segment y ∧ resolveSegment nodes x segment = .ok y) ∨
      ∃ e, (∀ y, ¬ Leads d x segment y) ∧
        resolveSegment nodes x segment = .error (.error e) := by
  by_cases hstay : Stays segment
  · refine .inl ⟨x, .stay hstay, ?_⟩
    have hstay' : segment = [] ∨ segment = ascii "." := hstay
    simp only [resolveSegment, if_pos hstay']
    rfl
  · have hstay' : ¬ (segment = [] ∨ segment = ascii ".") := hstay
    by_cases hup : segment = ascii ".."
    · subst hup
      have hnone : (∀ n, d.lookup x = some n → n.parentId = none) →
          ∀ y, ¬ Leads d x (ascii "..") y := by
        intro hroot y hy
        cases hy with
        | stay h => exact hstay h
        | parent hx hp =>
            rw [hroot _ hx] at hp
            cases hp
        | direct hplain _ => exact hplain.down rfl
        | child hplain _ _ => exact hplain.down rfl
      simp only [resolveSegment, if_neg hstay', if_true, hnodes x]
      cases hx : d.lookup x with
      | none =>
          refine .inr ⟨.invalidResourceSelector, hnone fun n hn => ?_, ?_⟩
          · rw [hx] at hn
            cases hn
          · rw [nodeJsonAt, hx]
            rfl
      | some n =>
          have hjson : nodeJsonAt d x = some (writeNodeJson n) := by rw [nodeJsonAt, hx]; rfl
          rw [hjson]
          simp only [ok_bind, get_parentId]
          cases hp : n.parentId with
          | none =>
              refine .inr ⟨.resourceSelectorEscapesRoot, hnone fun m hm => ?_, rfl⟩
              rw [hx] at hm
              cases hm
              exact hp
          | some p =>
              obtain ⟨m, hm, -⟩ := hv.linked hx hp
              have hlt := id_lt hslots hm
              refine .inl ⟨p, .parent hx hp, ?_⟩
              simp only [Option.map_some, jsonNumber_of_lt hlt, intCast_ofNat hlt]
    · have hplain : Plain segment := ⟨hstay, hup⟩
      simp only [resolveSegment, if_neg hstay', if_neg hup]
      cases hparse : parseDirectNodeReference segment with
      | some y => exact .inl ⟨y, .direct hplain hparse, rfl⟩
      | none =>
          have hchild : (∀ y, ¬ d.Matched x segment y) → ∀ y, ¬ Leads d x segment y := by
            intro hnone y hy
            cases hy with
            | stay h => exact hstay h
            | parent _ _ => exact hup rfl
            | direct _ h =>
                rw [hparse] at h
                cases h
            | child _ _ h => exact hnone y h
          cases hx : d.lookup x with
          | none =>
              refine .inr ⟨.invalidResourceSelector, hchild fun y hy => ?_, ?_⟩
              · obtain ⟨m, hm, -⟩ := Document.mem_childrenOf.mp hy.child
                rw [hx] at hm
                cases hm
              · simp only [resolveChildBySegment, hnodes x, nodeJsonAt, hx]
                rfl
          | some n =>
              rw [resolveChildBySegment_eq hv hslots htidy hnodes hx segment]
              rcases child_cases hv hx segment with ⟨y, hy, heq⟩ | ⟨e, hnone, heq⟩
              · exact .inl ⟨y, .child hplain hparse hy, heq⟩
              · exact .inr ⟨e, hchild hnone, heq⟩

include hv hslots htidy hnodes in
theorem foldlM_cases (x : Nat) (segments : List Bytes) :
    (∃ y, Walk d x segments y ∧ segments.foldlM (resolveSegment nodes) x = .ok y) ∨
      ∃ e, (¬ ∃ y, Walk d x segments y) ∧
        segments.foldlM (resolveSegment nodes) x = .error (.error e) := by
  induction segments generalizing x with
  | nil => exact .inl ⟨x, .nil x, rfl⟩
  | cons segment rest ih =>
      rw [List.foldlM_cons]
      rcases resolveSegment_cases hv hslots htidy hnodes x segment with
        ⟨y, hy, heq⟩ | ⟨e, hnone, heq⟩
      · rw [heq, ok_bind]
        rcases ih y with ⟨z, hz, hrest⟩ | ⟨e, hnone, hrest⟩
        · exact .inl ⟨z, .cons hy hz, hrest⟩
        · refine .inr ⟨e, ?_, hrest⟩
          rintro ⟨z, hz⟩
          cases hz with
          | cons hy' hz =>
              rw [hy'.unique hy] at hz
              exact hnone ⟨z, hz⟩
      · rw [heq]
        refine .inr ⟨e, ?_, rfl⟩
        rintro ⟨z, hz⟩
        cases hz with
        | cons hy' _ => exact hnone _ hy'

include hv hslots htidy hnodes in
/-- The client takes a direct reference to a missing node as it is, and the daemon refuses it: the two
walks agree when the client comes to nothing from there. -/
theorem agree_dead {x y : Nat} {segment : Bytes} (hplain : Plain segment)
    (hparse : parseDirectNodeReference segment = some y) (hy : d.lookup y = none)
    (more : List Bytes) :
    Agree ((segment :: more).foldlM d.resolveSegment x)
        ((segment :: more).foldlM (resolveSegment nodes) x) ↔
      ∀ z rest, Strays d x (segment :: more) z rest → z ≠ 0 ∧ ¬ ∃ w, Walk d z rest w := by
  have hleads : Leads d x segment y := .direct hplain hparse
  have hclient : resolveSegment nodes x segment = .ok y := by
    rcases resolveSegment_cases hv hslots htidy hnodes x segment with ⟨z, hz, heq⟩ | ⟨e, hnone, -⟩
    · rw [heq, hz.unique hleads]
    · exact absurd hleads (hnone y)
  have hdaemon : d.resolveSegment x segment
      = .error (Document.missing y .unknownResourceSelectorSegment) := by
    have hstay : ¬ (segment = [] ∨ segment = ascii ".") := hplain.moves
    have hparse' : Document.parseDirectNodeReference segment = some y := hparse
    simp only [Document.resolveSegment, if_neg hstay, if_neg hplain.down, hparse',
      Document.nodeOr_of_missing hy]
    rfl
  have hstrays : ∀ z rest, Strays d x (segment :: more) z rest ↔ z = y ∧ rest = more := by
    intro z rest
    constructor
    · intro h
      cases h with
      | here hz _ => exact ⟨hz.unique hleads, rfl⟩
      | later hz hlive _ => exact absurd hy (hz.unique hleads ▸ hlive)
    · rintro ⟨rfl, rfl⟩
      exact .here hleads hy
  rw [List.foldlM_cons, List.foldlM_cons, hdaemon, hclient, ok_bind]
  show Agree (.error (Document.missing y _)) _ ↔ _
  have hwalk := foldlM_cases hv hslots htidy hnodes y more
  constructor
  · rintro (⟨w, hw, -⟩ | ⟨e, e', he, he'⟩) z rest hz
    · cases hw
    · obtain ⟨rfl, rfl⟩ := (hstrays z rest).mp hz
      constructor
      · -- The daemon asserts that no id is zero.
        rintro rfl
        cases he
      · rcases hwalk with ⟨w, -, heq⟩ | ⟨e, hnone, -⟩
        · rw [heq] at he'
          cases he'
        · exact hnone
  · intro h
    obtain ⟨hy0, hnone⟩ := h y more ((hstrays y more).mpr ⟨rfl, rfl⟩)
    rcases hwalk with ⟨z, hz, -⟩ | ⟨e, -, heq⟩
    · exact absurd ⟨z, hz⟩ hnone
    · refine .inr ⟨.unknownResourceSelectorSegment, e, ?_, heq⟩
      rw [Document.missing, if_neg hy0]

omit hslots htidy hnodes in
include hv in
/-- Any other segment leads from a live node to live nodes only. -/
theorem live_of_leads {x y : Nat} {n : Node} (hx : d.lookup x = some n) {segment : Bytes}
    (hlive : ∀ y, Plain segment → parseDirectNodeReference segment = some y →
      ∃ m, d.lookup y = some m) (h : Leads d x segment y) : ∃ m, d.lookup y = some m := by
  cases h with
  | stay _ => exact ⟨n, hx⟩
  | parent hx' hp => exact (hv.linked hx' hp).imp fun _ => And.left
  | direct hplain hparse => exact hlive y hplain hparse
  | child _ _ hmatched =>
      obtain ⟨k, hk, -⟩ := hv.shape.parent_of_mem hmatched.child
      exact ⟨k, hk⟩

include hv hslots htidy hnodes in
/-- From a live node the two walks agree exactly when the client's does not stray, or strays for
nothing. -/
theorem agree_walk {x : Nat} {n : Node} (hx : d.lookup x = some n) (segments : List Bytes) :
    Agree (segments.foldlM d.resolveSegment x) (segments.foldlM (resolveSegment nodes) x) ↔
      ∀ y rest, Strays d x segments y rest → y ≠ 0 ∧ ¬ ∃ z, Walk d y rest z := by
  induction segments generalizing x n with
  | nil =>
      refine iff_of_true (.inl ⟨x, rfl, rfl⟩) fun y rest hstrays => ?_
      cases hstrays
  | cons segment more ih =>
      by_cases hdead : ∃ y, Plain segment ∧ parseDirectNodeReference segment = some y ∧
          d.lookup y = none
      · obtain ⟨y, hplain, hparse, hy⟩ := hdead
        exact agree_dead hv hslots htidy hnodes hplain hparse hy more
      · have hlive : ∀ y, Plain segment → parseDirectNodeReference segment = some y →
            ∃ m, d.lookup y = some m := fun y hplain hparse => by
          cases hy : d.lookup y with
          | none => exact absurd ⟨y, hplain, hparse, hy⟩ hdead
          | some m => exact ⟨m, rfl⟩
        have hsame := resolveSegment_eq hv hslots htidy hnodes hx segment hlive
        rw [List.foldlM_cons, List.foldlM_cons, ← hsame]
        rcases resolveSegment_cases hv hslots htidy hnodes x segment with
          ⟨y, hleads, heq⟩ | ⟨e, hnone, heq⟩
        · obtain ⟨m, hm⟩ := live_of_leads hv hx hlive hleads
          rw [heq, ok_bind, ok_bind, ih hm]
          have hstrays : ∀ z rest, Strays d x (segment :: more) z rest ↔ Strays d y more z rest := by
            intro z rest
            constructor
            · intro h
              cases h with
              | here hz hdead =>
                  rw [hz.unique hleads, hm] at hdead
                  cases hdead
              | later hz _ hrest => exact hz.unique hleads ▸ hrest
            · intro h
              refine .later hleads ?_ h
              rw [hm]
              exact Option.some_ne_none m
          simp only [hstrays]
        · -- The segment leads nowhere for either.
          rw [heq]
          refine iff_of_true (.inr ⟨e, e, rfl, rfl⟩) fun y rest hstrays => ?_
          cases hstrays with
          | here hy _ => exact absurd hy (hnone y)
          | later hz _ _ => exact absurd hz (hnone _)

end Reading

/-! ## The two resolvers -/

/-- What a client finds that asks for a document and its status, with any ids of the requests. -/
def clientResolves (documentPath : Bytes) (statusId getId : JsonValue) (d : Document)
    (selector : Option Bytes) : Except Failure Nat := do
  let result ← writeDocumentJson d
  resolveSelectorToNodeId (buildResult statusId (writeDocumentStatus documentPath d))
    (buildResult getId result) selector

theorem rootNodeIdOf_eq {result : JsonValue} {nodeId : Nat}
    (h : result.get (ascii "rootNodeId") = some (jsonNumber nodeId)) (hlt : nodeId < i64Limit) :
    rootNodeIdOf result = .ok nodeId := by
  rw [rootNodeIdOf, h, jsonNumber_of_lt hlt]
  exact intCast_ofNat hlt

/-- A walk that stays on a live node does not stray. -/
theorem not_strays {d : Document} {x : Nat} {n : Node} (hx : d.lookup x = some n)
    {segments : List Bytes} (hstay : ∀ segment ∈ segments, Stays segment) (y : Nat)
    (rest : List Bytes) : ¬ Strays d x segments y rest := by
  induction segments with
  | nil => exact fun h => by cases h
  | cons segment more ih =>
      have hleads : Leads d x segment x := .stay (hstay segment (List.mem_cons_self ..))
      intro h
      cases h with
      | here hy hdead =>
          rw [hy.unique hleads, hx] at hdead
          cases hdead
      | later hz _ h =>
          rw [hz.unique hleads] at h
          exact ih (fun s hs => hstay s (List.mem_cons_of_mem _ hs)) h

/-- The two resolvers on a document with its invariant, as long as every id is an `i64`. -/
theorem agree_iff {d : Document} (hv : Document.Valid d) (htidy : Document.Tidy d)
    (hslots : d.nodeSlots.length < i64Limit) (documentPath : Bytes) (statusId getId : JsonValue)
    (selector : Option Bytes) :
    Agree (d.resolveSelector selector) (clientResolves documentPath statusId getId d selector) ↔
      Harmless d selector := by
  obtain ⟨r, hr, -⟩ := hv.shape.root
  rw [← hv.shape.rootNodeId] at hr
  have hroot : d.rootNodeId < i64Limit := id_lt hslots hr
  have hnodes : Reads ((hv.shape.forest.preorder 1).filterMap (nodeJsonAt d)) d :=
    findNodeObject_eq hv hslots
  have hwalk := agree_walk hv hslots htidy hnodes hr
  have hstatus : fetchRootNodeId (buildResult statusId (writeDocumentStatus documentPath d))
      = .ok d.rootNodeId := rootNodeIdOf_eq rfl hroot
  rw [clientResolves, writeDocumentJson, walkPreorder_json hv, ok_bind, pure_eq_ok, ok_bind]
  -- Without segments both answer with the root, the client from the status of the document.
  have hrooted : (∀ segment ∈ segmentsOf selector, Stays segment) →
      d.resolveSelector selector = .ok d.rootNodeId →
      ∀ client : Except Failure Nat, client = .ok d.rootNodeId →
        (Agree (d.resolveSelector selector) client ↔ Harmless d selector) := by
    intro hstay hdaemon client hclient
    refine iff_of_true (.inl ⟨_, hdaemon, hclient⟩) fun y rest hstrays => ?_
    exact absurd hstrays (not_strays hr hstay y rest)
  cases selector with
  | none => exact hrooted (by decide) rfl _ hstatus
  | some text =>
      by_cases hshort : text = [] ∨ text = [slash]
      · have hstay : ∀ segment ∈ segmentsOf (some text), Stays segment := by
          rcases hshort with rfl | rfl <;> decide
        apply hrooted hstay
        · simp only [Document.resolveSelector, if_pos hshort]
        · simp only [resolveSelectorToNodeId, if_pos hshort]
          rw [hstatus]
      · simp only [Document.resolveSelector, resolveSelectorToNodeId, if_neg hshort]
        have hresult : ∀ result : List (Bytes × JsonValue),
            resultOf (buildResult getId (.object result)) = .ok (.object result) := fun _ => rfl
        rw [hresult, ok_bind]
        show Agree _ (rootNodeIdOf _ >>= fun rootNodeId => _) ↔ _
        rw [rootNodeIdOf_eq rfl hroot, ok_bind]
        exact hwalk (text.splitOn slash)

/-- In every document that calls of the store leave, as long as its slots fit into memory: the
client over the JSON of the document and the daemon on the document find the same node, or both
answer with an error, exactly when the walk of the selector does not stray, or strays from the live
nodes at an id other than 0 and breaks off before its end. -/
theorem client_agrees_iff (documentPath : Bytes) (id : Nat) (title : Bytes)
    (maxContentBytes : UInt64) (calls : List (Env × StoreCall)) (statusId getId : JsonValue)
    (selector : Option Bytes)
    (hslots : (afterStoreCalls documentPath (cappedEntry documentPath id title maxContentBytes)
      calls).document.nodeSlots.length < i64Limit) :
    let d := (afterStoreCalls documentPath (cappedEntry documentPath id title maxContentBytes)
      calls).document
    Agree (d.resolveSelector selector) (clientResolves documentPath statusId getId d selector) ↔
      Harmless d selector := by
  intro d
  have hsane := (sane_afterStoreCalls (sane_cappedEntry documentPath id title maxContentBytes)
    documentPath calls).1
  exact agree_iff hsane.valid hsane.tidy hslots documentPath statusId getId selector

/-- A new document, and a selector of an id that it does not have. -/
theorem client_agrees_new_document :
    let d := (cappedEntry (ascii "/docs") 2 (ascii "docs") 65536).document
    Agree (d.resolveSelector (some (ascii "@99")))
      (clientResolves (ascii "/docs") .null .null d (some (ascii "@99"))) ↔
      Harmless d (some (ascii "@99")) :=
  client_agrees_iff (ascii "/docs") 2 (ascii "docs") 65536 [] .null .null (some (ascii "@99"))
    (by decide)

/-- On a new document the client resolves `@99` to 99, and the daemon knows no such node. -/
theorem client_resolves_missing_node :
    let d := (afterStoreCalls (ascii "/docs") (cappedEntry (ascii "/docs") 2 (ascii "docs") 65536)
      []).document
    d.resolveSelector (some (ascii "@99")) = .error (.error .unknownResourceSelectorSegment) ∧
      clientResolves (ascii "/docs") .null .null d (some (ascii "@99")) = .ok 99 ∧
      ¬ Agree (d.resolveSelector (some (ascii "@99")))
        (clientResolves (ascii "/docs") .null .null d (some (ascii "@99"))) := by
  intro d
  have hdaemon : d.resolveSelector (some (ascii "@99"))
      = .error (.error .unknownResourceSelectorSegment) := by decide +kernel
  have hclient : clientResolves (ascii "/docs") .null .null d (some (ascii "@99")) = .ok 99 := by
    decide +kernel
  refine ⟨hdaemon, hclient, ?_⟩
  rw [hdaemon, hclient]
  rintro (⟨x, hx, -⟩ | ⟨e, e', -, he'⟩)
  · cases hx
  · cases he'

end Muxly.Client
