import ApiTypes.Proofs.Reading.Keys
import ApiTypes.Proofs.Reading.Openings

/-! # YAML that begins with a bracket

The root of a text that begins with a bracket is a sequence, or a mapping whose first key is one.
Neither has fields, so such a text is never read as a description (`Api.ofYaml_of_bracket`).

Main definitions: `Node.Bracketed`. -/

namespace ApiTypes

namespace Yaml

/-! ### The node -/

namespace Node
variable {α : Type}

/-- A sequence, or a mapping whose first key is one. -/
inductive Bracketed : Node α → Prop
  | sequence (anchor : Option α) (tag : Option Tag) (items : List (Node α)) :
      Bracketed (.sequence anchor tag items)
  | mapping (anchor : Option α) (tag : Option Tag) (keyAnchor : Option α) (keyTag : Option Tag)
      (items : List (Node α)) (value : Node α) (entries : List (Node α × Node α)) :
      Bracketed (.mapping anchor tag ((.sequence keyAnchor keyTag items, value) :: entries))

section
variable {names names' : Names} {anchor : Option String} {tag : Option Tag} {n : Node Nat}

theorem exists_of_numbered_sequence {items : List (Node String)}
    (h : numbered? names (.sequence anchor tag items) = some (n, names')) :
    ∃ anchor' items', n = .sequence anchor' tag items' := by
  rw [numbered?] at h
  obtain ⟨⟨items', _⟩, _, heq⟩ := Option.map_eq_some_iff.mp h
  exact ⟨_, items', (Prod.mk.inj heq).1.symm⟩

theorem exists_of_numbered_mapping {entries : List (Node String × Node String)}
    (h : numbered? names (.mapping anchor tag entries) = some (n, names')) :
    ∃ before anchor' entries', n = .mapping anchor' tag entries' ∧
      numberedEntries? before entries = some (entries', names') := by
  rw [numbered?] at h
  obtain ⟨⟨entries', after⟩, hentries, heq⟩ := Option.map_eq_some_iff.mp h
  obtain ⟨rfl, rfl⟩ := Prod.mk.inj heq
  exact ⟨_, _, entries', rfl, hentries⟩

theorem exists_of_numberedEntries_cons {k v : Node String}
    {rest : List (Node String × Node String)} {entries : List (Node Nat × Node Nat)}
    (h : numberedEntries? names ((k, v) :: rest) = some (entries, names')) :
    ∃ between k' v' rest', numbered? names k = some (k', between) ∧
      entries = (k', v') :: rest' := by
  rw [numberedEntries?] at h
  obtain ⟨⟨k', between⟩, hkey, h⟩ := Option.bind_eq_some_iff.mp h
  obtain ⟨⟨v', _⟩, _, h⟩ := Option.bind_eq_some_iff.mp h
  obtain ⟨⟨rest', _⟩, _, h⟩ := Option.bind_eq_some_iff.mp h
  exact ⟨between, k', v', rest', hkey, (Prod.mk.inj (Option.some.inj h)).1.symm⟩

/-- Numbering anchors changes no brackets. -/
theorem Bracketed.numbered {root : Node String} (h : root.Bracketed)
    (hn : root.numbered? names = some (n, names')) : n.Bracketed := by
  cases h with
  | sequence =>
      obtain ⟨_, _, rfl⟩ := exists_of_numbered_sequence hn
      exact .sequence _ _ _
  | mapping =>
      obtain ⟨_, _, _, rfl, hentries⟩ := exists_of_numbered_mapping hn
      obtain ⟨_, _, _, _, hkey, rfl⟩ := exists_of_numberedEntries_cons hentries
      obtain ⟨_, _, rfl⟩ := exists_of_numbered_sequence hkey
      exact .mapping _ _ _ _ _ _ _

end

end Node

section
variable {handles : Handles} {fuel : Nat} {block bare : Bool} {ts : List Token}

theorem exists_of_node_flowSequenceStart {n : Node String} {rest : List Token}
    (h : node handles fuel block bare (.flowSequenceStart :: ts) = some (n, rest)) :
    ∃ items, n = .sequence none none items := by
  cases fuel with
  | zero => simp [node] at h
  | succ fuel =>
      rw [node] at h
      · obtain ⟨⟨_, _⟩, hproperties, h⟩ := Option.bind_eq_some_iff.mp h
        obtain ⟨rfl, rfl⟩ := Prod.mk.inj (Option.some.inj hproperties)
        obtain ⟨⟨items, _⟩, _, h⟩ := Option.bind_eq_some_iff.mp h
        exact ⟨items, (Prod.mk.inj (Option.some.inj h)).1.symm⟩
      · simp

theorem exists_of_node_blockMappingStart {n : Node String} {rest : List Token}
    (h : node handles (fuel + 1) true bare (.blockMappingStart :: ts) = some (n, rest)) :
    ∃ entries, n = .mapping none none entries ∧
      blockEntries handles fuel ts = some (entries, rest) := by
  rw [node] at h
  · obtain ⟨⟨_, _⟩, hproperties, h⟩ := Option.bind_eq_some_iff.mp h
    obtain ⟨rfl, rfl⟩ := Prod.mk.inj (Option.some.inj hproperties)
    obtain ⟨⟨entries, _⟩, hentries, h⟩ := Option.bind_eq_some_iff.mp h
    obtain ⟨rfl, rfl⟩ := Prod.mk.inj (Option.some.inj h)
    exact ⟨entries, rfl, hentries⟩
  · simp

theorem exists_of_blockEntries_key {entries : List (Node String × Node String)} {rest : List Token}
    (h : blockEntries handles (fuel + 1) (.key :: .flowSequenceStart :: ts) = some (entries, rest)) :
    ∃ items value others, entries = (.sequence none none items, value) :: others := by
  rw [blockEntries] at h
  obtain ⟨⟨key, _⟩, hkey, h⟩ := Option.bind_eq_some_iff.mp h
  obtain ⟨items, rfl⟩ := exists_of_node_flowSequenceStart hkey
  obtain ⟨⟨value, _⟩, _, h⟩ := Option.bind_eq_some_iff.mp h
  obtain ⟨⟨others, _⟩, _, h⟩ := Option.bind_eq_some_iff.mp h
  exact ⟨items, value, others, (Prod.mk.inj (Option.some.inj h)).1.symm⟩

theorem node_key : node handles (fuel + 1) block bare (.key :: ts) = none := by
  rw [node]
  · simp [properties, Properties.isEmpty]
  · simp

/-- The node of an opening is a sequence, or a mapping whose first key is one. -/
theorem bracketed_of_node {opening rest : List Token} {root : Node String}
    (hopening : Opening opening)
    (h : node handles fuel true bare (opening ++ ts) = some (root, rest)) : root.Bracketed := by
  cases fuel with
  | zero => simp [node] at h
  | succ fuel =>
      cases hopening with
      | bracket =>
          obtain ⟨_, rfl⟩ := exists_of_node_flowSequenceStart h
          exact .sequence _ _ _
      | key =>
          rw [List.cons_append, node_key] at h
          cases h
      | mapping =>
          obtain ⟨_, rfl, hentries⟩ := exists_of_node_blockMappingStart h
          cases fuel with
          | zero => simp [blockEntries] at hentries
          | succ fuel =>
              obtain ⟨_, _, _, rfl⟩ := exists_of_blockEntries_key hentries
              exact .mapping _ _ _ _ _ _ _

/-- Neither directives nor a document marker stand before an opening. -/
theorem rootOfTokens_eq {opening : List Token} (hopening : Opening opening) :
    rootOfTokens (opening ++ ts) =
      (node Handles.usual (4 * (opening ++ ts).length + 4) true false (opening ++ ts)).bind
        fun (root, rest) => if noMore rest then some (some root) else none := by
  cases hopening <;> rfl

/-- Tokens that begin with an opening hold a root, and one that begins with a bracket. -/
theorem bracketed_of_rootOfTokens {opening : List Token} {root : Option (Node String)}
    (hopening : Opening opening) (hopens : opening <+: ts) (h : rootOfTokens ts = some root) :
    ∃ n ∈ root, n.Bracketed := by
  obtain ⟨ts, rfl⟩ := hopens
  rw [rootOfTokens_eq hopening] at h
  obtain ⟨⟨n, rest⟩, hnode, h⟩ := Option.bind_eq_some_iff.mp h
  dsimp only at h
  split at h
  · obtain rfl := Option.some.inj h
    exact ⟨n, rfl, bracketed_of_node hopening hnode⟩
  · cases h

end

/-- The root of a text that begins with a bracket is a sequence, or a mapping whose first key is
one. -/
theorem Document.bracketed_of_ofText? {s : String} {d : Document} (hs : BeforeBracket s.toList)
    (h : Document.ofText? s = some d) : ∃ n ∈ d.root, n.Bracketed := by
  obtain ⟨ts, hts, h⟩ := Option.bind_eq_some_iff.mp h
  obtain ⟨root, hroot, h⟩ := Option.bind_eq_some_iff.mp h
  obtain ⟨opening, hopening, hopens⟩ := exists_opening hs hts
  obtain ⟨n, hn, hbracketed⟩ := bracketed_of_rootOfTokens hopening hopens hroot
  obtain rfl := hn
  obtain ⟨⟨n', _⟩, hnumbered, rfl⟩ := Option.map_eq_some_iff.mp h
  exact ⟨n', rfl, hbracketed.numbered hnumbered⟩

/-! ### Reading -/

theorem Node.Bracketed.follow {n : Node Nat} (h : n.Bracketed) (d : Document) :
    Yaml.follow d n = pure n := by
  cases h <;> rfl

theorem not_yields_scalarText {d : Document} {anchor : Option Nat} {tag : Option Tag}
    {items : List (Node Nat)} {text : String} :
    ¬ Yields (scalarText d (.sequence anchor tag items)) text := by
  intro h
  obtain ⟨n, hn, h⟩ := h.bind
  rw [(Node.Bracketed.sequence anchor tag items).follow] at hn
  obtain rfl := yields_pure_iff.mp hn
  exact Reading.not_yields_failure h

namespace At
variable {p : At} {n : Node Nat} (hp : p.node = some n) (hn : n.Bracketed)
include hp hn

/-- What begins with a bracket has no entries: a sequence has none, and no key is one. -/
theorem not_yields_namedPairs {entries : List (String × At)} : ¬ Yields p.namedPairs entries := by
  intro h
  obtain ⟨pairs, hpairs, h⟩ := h.bind
  have hpairs := Reading.eq_some_of_yields_ofOption hpairs
  unfold pairs? at hpairs
  rw [hp] at hpairs
  cases hn with
  | sequence => cases hpairs
  | mapping anchor tag keyAnchor keyTag items value others =>
      dsimp only at hpairs
      split at hpairs
      · cases hpairs
      · obtain rfl := Option.some.inj hpairs
        obtain ⟨_, _, hentry, _, _⟩ := List.forall₂_cons_left_iff.mp h.mapM
        obtain ⟨text, htext, _⟩ := hentry.map
        exact not_yields_scalarText htext

theorem not_yields_fields {names : List String} {needed : Nat} {fs : Fields At} :
    ¬ Yields (Place.fields names needed p) fs := by
  intro h
  obtain ⟨q, hq, h⟩ := h.bind
  obtain ⟨entries, hentries, _⟩ := h.bind
  have hfollowed : p.followed = pure p := by
    unfold followed
    rw [hp]
    dsimp only
    rw [hn.follow, pure_bind, ← hp]
  rw [hfollowed] at hq
  obtain rfl := yields_pure_iff.mp hq
  exact not_yields_namedPairs hp hn hentries

end At

end Yaml

namespace Api

/-- A text that begins with a bracket is no description in YAML. -/
theorem ofYaml_of_bracket {s : String} (hs : Yaml.BeforeBracket s.toList) :
    ofYaml s = .error .yaml := by
  unfold ofYaml
  split
  · rfl
  · next api hapi =>
    obtain ⟨document, hdocument, hapi⟩ := Option.bind_eq_some_iff.mp hapi
    obtain ⟨n, hn, hbracketed⟩ := Yaml.Document.bracketed_of_ofText? hs hdocument
    obtain ⟨⟨read, rest⟩, hread, _⟩ := Option.map_eq_some_iff.mp hapi
    have hyields : Yields (Reading.api document.place) read := ⟨_, rest, hread⟩
    obtain ⟨fs, hfs, _⟩ := hyields.bind
    exact absurd hfs (Yaml.At.not_yields_fields hn hbracketed)

end Api

end ApiTypes
