import ApiTypes.Proofs.Resolution.Naming

/-! # Descriptions of fields

A property that refers to a name takes the description of that name from the table at the time the
entry is made.  A name declared with its schema in place has its description from the start; an alias
has one only from the first pass that finds the description of its own target (`Described`).  An
entry is made for the last time in the pass that settles it, so a field keeps what was known then
(`Carries`), and where this is not yet the description of the alias, the field has none
(`fields_described`).

Main definitions: `Described`, `Carries`, `passesAt`, `Informed`. -/

namespace ApiTypes

/-! ### What is known after so many passes -/

section known
variable (schemas : Table Schema) (g : Graph)

/-- After so many passes the description of the name is known and is this text.  An alias is asked
for that of its target in each pass before which it waits. -/
inductive Described : Nat → String → String → Prop
  | own {passes : Nat} {name text : String} {shape : Shape} :
      schemas.get? name = some (.inline shape) →
      shape.description.bind DocText.cleanDescription = some text → Described passes name text
  | relayed {passes before : Nat} {name target path text : String} :
      schemas.get? name = some (.ref path) → refName path = .ok target →
      before < passes → ¬ FinalAfter schemas g before name →
      Described (before + 1 - forward schemas name target) target text →
      Described passes name text

/-- After so many passes the entry of the first name has this description wherever it refers to the
second: a pass that made the entry knew the text. -/
def Carries (passes : Nat) (x y text : String) : Prop :=
  ∃ before < passes, ¬ FinalAfter schemas g before x ∧
    Described schemas g (before + 1 - forward schemas x y) y text

end known

variable {schemas : Table Schema} {g : Graph} {passes : Nat} {x y name text : String}

theorem lt_of_not_finalAfter {before final : Nat} (hwaits : ¬ FinalAfter schemas g before x)
    (hfinal : FinalAfter schemas g final x) : before < final := by
  by_contra hle
  exact hwaits (hfinal.mono (Nat.le_of_not_lt hle))

theorem described_inline_iff {shape : Shape} (hs : schemas.get? name = some (.inline shape)) :
    Described schemas g passes name text ↔
      shape.description.bind DocText.cleanDescription = some text := by
  constructor
  · intro h
    cases h with
    | own hs' htext =>
        obtain rfl := Schema.inline.inj (Option.some.inj (hs.symm.trans hs'))
        exact htext
    | relayed hs' => cases hs.symm.trans hs'
  · exact .own hs

theorem described_alias_iff {path target : String} (hs : schemas.get? name = some (.ref path))
    (href : refName path = .ok target) :
    Described schemas g passes name text ↔ Carries schemas g passes name target text := by
  constructor
  · intro h
    cases h with
    | own hs' => cases hs.symm.trans hs'
    | relayed hs' href' hlt hwaits htarget =>
        obtain rfl := Schema.ref.inj (Option.some.inj (hs.symm.trans hs'))
        obtain rfl := Except.ok.inj (href.symm.trans href')
        exact ⟨_, hlt, hwaits, htarget⟩
  · rintro ⟨before, hlt, hwaits, htarget⟩
    exact .relayed hs href hlt hwaits htarget

theorem Described.declared (h : Described schemas g passes name text) :
    schemas.contains name = true := by
  cases h with
  | own hs _ => exact Table.contains_of_get? hs
  | relayed hs _ _ _ _ => exact Table.contains_of_get? hs

/-- An alias of itself is never described. -/
theorem not_described_self {path : String} (hs : schemas.get? name = some (.ref path))
    (href : refName path = .ok name) : ¬ Described schemas g passes name text := by
  intro h
  induction h with
  | own hs' => cases hs.symm.trans hs'
  | relayed hs' href' _ _ _ ih =>
      obtain rfl := Schema.ref.inj (Option.some.inj (hs.symm.trans hs'))
      obtain rfl := Except.ok.inj (href.symm.trans href')
      exact ih hs href

theorem Described.mono {more : Nat} (h : Described schemas g passes name text)
    (hle : passes ≤ more) : Described schemas g more name text := by
  cases h with
  | own hs htext => exact .own hs htext
  | relayed hs href hlt hwaits htarget => exact .relayed hs href (hlt.trans_le hle) hwaits htarget

/-- What is ever known of a name is known once the name is final. -/
theorem Described.of_final {final : Nat} (h : Described schemas g passes name text)
    (hfinal : FinalAfter schemas g final name) : Described schemas g final name text := by
  cases h with
  | own hs htext => exact .own hs htext
  | relayed hs href _ hwaits htarget =>
      exact .relayed hs href (lt_of_not_finalAfter hwaits hfinal) hwaits htarget

theorem Carries.described (h : Carries schemas g passes x y text) :
    Described schemas g passes y text := by
  obtain ⟨before, hlt, _, htext⟩ := h
  exact htext.mono (by omega)

/-- A name that waits is made in the next pass, which knows most. -/
theorem carries_succ_of_waits (h : ¬ FinalAfter schemas g passes x) :
    Carries schemas g (passes + 1) x y text ↔
      Described schemas g (passes + 1 - forward schemas x y) y text := by
  constructor
  · rintro ⟨before, hlt, _, htext⟩
    exact htext.mono (by omega)
  · intro htext
    exact ⟨passes, Nat.lt_succ_self _, h, htext⟩

theorem carries_succ_of_final (h : FinalAfter schemas g passes x) :
    Carries schemas g (passes + 1) x y text ↔ Carries schemas g passes x y text := by
  constructor
  · rintro ⟨before, _, hwaits, htext⟩
    exact ⟨before, lt_of_not_finalAfter hwaits h, hwaits, htext⟩
  · rintro ⟨before, hlt, hrest⟩
    exact ⟨before, hlt.trans (Nat.lt_succ_self _), hrest⟩

theorem described_succ_of_final (h : FinalAfter schemas g passes name) :
    Described schemas g (passes + 1) name text ↔ Described schemas g passes name text :=
  ⟨fun hd => hd.of_final h, fun hd => hd.mono (Nat.le_succ _)⟩

/-! ### The table between two entries -/

/-- How many passes have come to the name, while the one after so many others has come to these. -/
def passesAt (passes : Nat) (done : List String) (name : String) : Nat :=
  if name ∈ done then passes + 1 else passes

theorem passesAt_append (passes : Nat) (done : List String) (x : String) :
    passesAt passes (done ++ [x]) = Function.update (passesAt passes done) x (passes + 1) := by
  funext z
  unfold passesAt
  by_cases hz : z = x
  · simp [hz]
  · rw [Function.update_of_ne hz]
    simp [hz]

/-- So many passes have come to each name: the table has the descriptions known by then, and every
entry was made from a table that had those it carries. -/
structure Informed (schemas : Table Schema) (g : Graph) (made : String → Nat)
    (table : Table ResolvedSchema) : Prop where
  description_iff : ∀ name text, Building.description ⟨schemas, g, table⟩ name = some text ↔
    Described schemas g (made name) name text
  made_from : ∀ x s entry, schemas.get? x = some s → table.get? x = some entry →
    ∃ source deferred, Building.entry ⟨schemas, g, source⟩ x s = .ok (entry, deferred) ∧
      ∀ y, s.Follows y → ∀ text, Building.description ⟨schemas, g, source⟩ y = some text ↔
        Carries schemas g (made x) x y text

theorem informed_empty : Informed schemas g (fun _ => 0) Table.empty where
  description_iff name text := by
    have hentry : (Table.empty : Table ResolvedSchema).get? name = none := rfl
    cases hs : schemas.get? name with
    | none =>
        simp only [Building.description, hentry, hs]
        refine iff_of_false (Option.some_ne_none text).symm fun h => ?_
        simpa [Table.contains, hs] using h.declared
    | some s =>
        simp only [Building.description, hentry, hs]
        cases s with
        | inline shape => exact (described_inline_iff hs).symm
        | ref path =>
            refine iff_of_false (Option.some_ne_none text).symm fun h => ?_
            cases h with
            | own hs' => cases hs.symm.trans hs'
            | relayed _ _ hlt => omega
  made_from _ _ _ _ hentry := by cases hentry

namespace Informed

variable {made made' : String → Nat} {table : Table ResolvedSchema} {s : Schema}

theorem congr (h : Informed schemas g made table)
    (hmade : ∀ name, schemas.contains name = true → made name = made' name) :
    Informed schemas g made' table where
  description_iff name text := by
    rw [h.description_iff name text]
    constructor
    · intro hd
      exact hmade name hd.declared ▸ hd
    · intro hd
      exact (hmade name hd.declared).symm ▸ hd
  made_from x s entry hs hentry := by
    rw [← hmade x (Table.contains_of_get? hs)]
    exact h.made_from x s entry hs hentry

/-- The name that is next finds what the entry made for it is to carry. -/
theorem description_followed (h : Informed schemas g made table) (hs : schemas.get? x = some s)
    (hwaits : ¬ FinalAfter schemas g passes x)
    (hmade : ∀ y, y ≠ x → made y = passes + 1 - forward schemas x y) (hy : s.Follows y) :
    Building.description ⟨schemas, g, table⟩ y = some text ↔
      Carries schemas g (passes + 1) x y text := by
  rw [h.description_iff, carries_succ_of_waits hwaits]
  by_cases hyx : y = x
  · subst hyx
    cases s with
    | inline shape => rw [described_inline_iff hs, described_inline_iff hs]
    | ref path =>
        cases hy with
        | ref href => exact iff_of_false (not_described_self hs href) (not_described_self hs href)
  · rw [hmade y hyx]

/-- What is known of the name is the description of the entry made for it. -/
theorem describe_iff {l : Lookup} {e : Expansion} (hs : schemas.get? x = some s)
    (he : expand l s = .ok e)
    (hl : ∀ y, s.Follows y → ∀ text, l.description y = some text ↔
      Carries schemas g passes x y text) :
    describe l s = some text ↔ Described schemas g passes x text := by
  cases s with
  | inline shape => exact (described_inline_iff hs).symm
  | ref path =>
      obtain ⟨target, href, _⟩ := bind_eq_ok.mp he
      rw [described_alias_iff hs href]
      unfold describe
      simp only [href]
      exact hl target (.ref href) text

/-- A further pass makes the entry of the name. -/
theorem insert (h : Informed schemas g made table) (hs : schemas.get? x = some s)
    (hwaits : ¬ FinalAfter schemas g passes x)
    (hmade : ∀ y, y ≠ x → made y = passes + 1 - forward schemas x y)
    {entry : ResolvedSchema} {deferred : Bool}
    (hentry : Building.entry ⟨schemas, g, table⟩ x s = .ok (entry, deferred)) :
    Informed schemas g (Function.update made x (passes + 1)) (table.insert x entry) where
  description_iff name text := by
    unfold Building.description
    simp only [Table.get?_insert]
    by_cases hx : name = x
    · subst hx
      obtain ⟨e, he, hpair⟩ := bind_eq_ok.mp hentry
      obtain ⟨rfl, _⟩ := Prod.mk.inj (Except.ok.inj hpair)
      rw [if_pos rfl, Function.update_self]
      exact describe_iff hs he fun y hy text => h.description_followed hs hwaits hmade hy
    · rw [if_neg hx, Function.update_of_ne hx]
      exact h.description_iff name text
  made_from z t found ht hfound := by
    rw [Table.get?_insert] at hfound
    by_cases hz : z = x
    · subst hz
      rw [if_pos rfl] at hfound
      obtain rfl := Option.some.inj hfound
      obtain rfl := Option.some.inj (hs.symm.trans ht)
      rw [Function.update_self]
      exact ⟨table, deferred, hentry,
        fun y hy text => h.description_followed hs hwaits hmade hy⟩
    · rw [if_neg hz] at hfound
      rw [Function.update_of_ne hz]
      exact h.made_from z t found ht hfound

/-- A further pass passes over the name, which is final. -/
theorem skip (h : Informed schemas g made table) (hfinal : FinalAfter schemas g passes x)
    (hmade : made x = passes) :
    Informed schemas g (Function.update made x (passes + 1)) table where
  description_iff name text := by
    rw [h.description_iff]
    by_cases hx : name = x
    · subst hx
      rw [Function.update_self, hmade, described_succ_of_final hfinal]
    · rw [Function.update_of_ne hx]
  made_from z t found ht hfound := by
    obtain ⟨source, deferred, hentry, hdescription⟩ := h.made_from z t found ht hfound
    refine ⟨source, deferred, hentry, fun y hy text => ?_⟩
    rw [hdescription y hy text]
    by_cases hz : z = x
    · subst hz
      rw [Function.update_self, hmade, carries_succ_of_final hfinal]
    · rw [Function.update_of_ne hz]

/-! ### Whole passes -/

/-- A sweep over the names that are not final brings the table one pass further. -/
theorem sweep {waits : String → Bool}
    (hwaits : ∀ z, schemas.contains z = true → (waits z = true ↔ ¬ FinalAfter schemas g passes z))
    (h : Informed schemas g (fun _ => passes) table) {q : Progress}
    (hsweep : ApiTypes.sweep schemas g waits table = .ok q) :
    Informed schemas g (fun _ => passes + 1) q.table := by
  have hrun : Informed schemas g (passesAt passes (schemas.entries.map Prod.fst)) q.table := by
    unfold ApiTypes.sweep at hsweep
    rw [List.foldlM_filter] at hsweep
    refine Stepwise.Yields.foldlM (m := Except InvalidRef) hsweep
      (fun done p => Informed schemas g (passesAt passes (done.map Prod.fst)) p.table)
      (h.congr fun _ _ => rfl) ?_
    rintro pre ⟨x, s⟩ post p p' hl hp hstep
    have hs : schemas.get? x = some s := get?_of_entries hl
    have hkeys := keys_of_entries hl
    rw [List.map_append, List.map_singleton, passesAt_append]
    by_cases hx : waits x = true
    · obtain ⟨⟨entry, deferred⟩, hentry, hstep⟩ :=
        bind_eq_ok.mp ((if_pos hx).symm.trans hstep)
      obtain rfl := Except.ok.inj hstep
      refine hp.insert hs ((hwaits x (Table.contains_of_get? hs)).mp hx) ?_ hentry
      intro y hy
      unfold passesAt
      rw [forward_eq hkeys hy]
      split <;> rfl
    · obtain rfl := Except.ok.inj ((if_neg hx).symm.trans hstep)
      refine hp.skip ?_ (if_neg (Midway.not_mem_done hkeys))
      by_contra hn
      exact hx ((hwaits x (Table.contains_of_get? hs)).mpr hn)
  exact hrun.congr fun z hz => if_pos (Table.contains_iff_mem_keys.mp hz)

section run
variable (hg : Graph.ofSchemas schemas = .ok g)
include hg

theorem rounds (n : Nat) {p q : Progress} (h : Informed schemas g (fun _ => passes) p.table)
    (hstage : Stage schemas g passes p) (hrounds : ApiTypes.rounds schemas g n p = .ok q) :
    Informed schemas g (fun _ => passes + n) q.table := by
  induction n generalizing p passes with
  | zero =>
      obtain rfl := Except.ok.inj hrounds
      exact h
  | succ n ih =>
      obtain ⟨p', hsweep, hrounds⟩ := bind_eq_ok.mp hrounds
      obtain ⟨_, hsweep', hstage'⟩ := hstage.sweep hg
      obtain rfl := Except.ok.inj (hsweep.symm.trans hsweep')
      have hnext : Informed schemas g (fun _ => passes + 1) p'.table := by
        refine h.sweep ?_ hsweep
        intro z hz
        rw [List.contains_iff_mem, hstage.pending_iff z, and_iff_right hz]
      rw [Nat.add_comm n, ← Nat.add_assoc]
      exact ih hnext hstage' hrounds

end run

end Informed

/-- In the end every name has been come to in the first pass and in each retry pass. -/
theorem resolveSchemas_informed (hg : Graph.ofSchemas schemas = .ok g) {r : Resolution}
    (h : resolveSchemas schemas = .ok r) :
    Informed schemas g (fun _ => maxRetryPasses + 1) r.table := by
  obtain ⟨first, last, reports, hstage, hfirst, hrounds, hr⟩ := resolveSchemas_rounds hg
  obtain rfl := Except.ok.inj (h.symm.trans hr)
  have hstart : Informed schemas g (fun _ => 0 + 1) first.table :=
    informed_empty.sweep (fun z _ => iff_of_true rfl (not_finalAfter_zero z)) hfirst
  exact Nat.add_comm maxRetryPasses 1 ▸ hstart.rounds hg maxRetryPasses hstage hrounds

/-! ### Fields -/

/-- A name that an entry follows, and that does not lead back to it, is described as soon as the
entry is made for the last time. -/
theorem carries_of_apart (hg : Graph.ofSchemas schemas = .ok g) {s : Schema}
    (hs : schemas.get? x = some s) (hy : s.Follows y) (hback : ¬ g.edges.Reaches y x)
    (hfinal : FinalAfter schemas g passes x) (h : Described schemas g passes y text) :
    Carries schemas g passes x y text := by
  have hne : y ≠ x := by
    rintro rfl
    exact hback (.single (hy.mem_references (ofSchemas_targets hg hs)))
  have hlooks : LooksUp schemas g x y := by
    refine ⟨s, hs, [x], hy.visits [x], by simpa using hne, h.declared, ?_⟩
    rw [Bool.eq_false_iff, ne_eq, reachesAny_eq_true_iff hg]
    simpa using hback
  -- The pass that settles the entry makes it for the last time.
  induction passes with
  | zero => exact absurd hfinal (not_finalAfter_zero x)
  | succ passes ih =>
      by_cases hbefore : FinalAfter schemas g passes x
      · have hyfinal := ((finalAfter_iff.mp hbefore).2 y hlooks).mono (Nat.sub_le _ _)
        exact (carries_succ_of_final hbefore).mpr (ih hbefore (h.of_final hyfinal))
      · rw [carries_succ_of_waits hbefore]
        exact h.of_final ((finalAfter_iff.mp hfinal).2 y hlooks)

/-- An object made of its own properties has a field for each, described from the table. -/
theorem Building.entry_object {b : Building} {shape : Shape} {entry : ResolvedSchema}
    {deferred : Bool} (h : b.entry x (.inline shape) = .ok (entry, deferred))
    (hform : shape.form = .object) :
    ∃ fields, entry.type = .object fields ∧
      List.Forall₂ (fun p f => p.2 ∈ shape.parts ∧ f.key = p.1 ∧
        f.description = describe (b.lookup x) p.2) shape.properties fields := by
  obtain ⟨e, he, hpair⟩ := bind_eq_ok.mp h
  obtain ⟨rfl, _⟩ := Prod.mk.inj (Except.ok.inj hpair)
  obtain ⟨types, _, htype⟩ := exists_assembled he
  unfold Shape.assemble at htype
  rw [hform] at htype
  refine ⟨_, htype, List.forall₂_map_right_iff.mpr (List.forall₂_same.mpr ?_)⟩
  intro p hp
  refine ⟨?_, rfl, rfl⟩
  unfold Shape.parts
  rw [hform]
  exact List.mem_map_of_mem hp

/-- What the entry of a name carries about another that it follows is all that is known of it in the
end, or nothing where the other is an alias that leads back. -/
theorem carried_eq_or (hg : Graph.ofSchemas schemas = .ok g) {shape : Shape}
    (hx : schemas.get? x = some (.inline shape)) (hy : (Schema.inline shape).Follows y)
    (hfinal : FinalAfter schemas g passes x) {carried known : Option String}
    (hcarried : ∀ text, carried = some text ↔ Carries schemas g passes x y text)
    (hknown : ∀ text, known = some text ↔ Described schemas g passes y text) :
    carried = known ∨
      carried = none ∧ (∃ path, schemas.get? y = some (.ref path)) ∧ g.edges.Reaches y x := by
  by_cases hall : ∀ text, Described schemas g passes y text → Carries schemas g passes x y text
  · refine Or.inl (Option.ext fun text => ?_)
    rw [hcarried, hknown]
    exact ⟨Carries.described, hall text⟩
  obtain ⟨text, htext, hnot⟩ : ∃ text, Described schemas g passes y text ∧
      ¬ Carries schemas g passes x y text := by simpa using hall
  have halias : ∃ path, schemas.get? y = some (.ref path) := by
    cases htext with
    | own hs hdescription =>
        have hpos := (finalAfter_iff.mp hfinal).1
        exact absurd ⟨0, hpos, not_finalAfter_zero x, .own hs hdescription⟩ hnot
    | relayed hs _ _ _ _ => exact ⟨_, hs⟩
  refine Or.inr ⟨?_, halias, ?_⟩
  · rw [Option.eq_none_iff_forall_ne_some]
    intro other hother
    have hsame := ((hknown other).mpr ((hcarried other).mp hother).described).symm.trans
      ((hknown text).mpr htext)
    obtain rfl := Option.some.inj hsame
    exact hnot ((hcarried other).mp hother)
  · by_contra hback
    exact hnot (carries_of_apart hg hx hy hback hfinal htext)

/-- A field of an object in the finished table, for a property that refers to a declared name: it has
the description that its entry carries, which is that of the name, or none where the name is an
alias on a cycle with the entry. -/
theorem fields_described {r : Resolution} (h : resolveSchemas schemas = .ok r) {shape : Shape}
    (hx : schemas.get? x = some (.inline shape)) (hform : shape.form = .object)
    (hquiet : ∀ entry, r.table.get? x = some entry →
      ∀ n ∈ entry.type.pendingTargets, schemas.contains n = false) :
    ∃ g entry fields, Graph.ofSchemas schemas = .ok g ∧ r.table.get? x = some entry ∧
      entry.type = .object fields ∧
      List.Forall₂ (fun p f => f.key = p.1 ∧ ∀ path y, p.2 = .ref path → refName path = .ok y →
        schemas.contains y = true → ∃ target, r.table.get? y = some target ∧
          (∀ text, target.description = some text ↔
            Described schemas g (maxRetryPasses + 1) y text) ∧
          (∀ text, f.description = some text ↔
            Carries schemas g (maxRetryPasses + 1) x y text) ∧
          (f.description = target.description ∨ f.description = none ∧
            (∃ path, schemas.get? y = some (.ref path)) ∧ g.edges.Reaches y x))
        shape.properties fields := by
  obtain ⟨g, hg⟩ := ofSchemas_of_resolveSchemas h
  obtain ⟨_, hr, hkeys, _, hsettled⟩ := resolveSchemas_stage hg
  obtain rfl := Except.ok.inj (h.symm.trans hr)
  have hinformed := resolveSchemas_informed hg h
  have hdeclared : schemas.contains x = true := Table.contains_of_get? hx
  obtain ⟨entry, hentry⟩ := Table.exists_get?_of_keys hkeys hdeclared
  have hfinal : FinalAfter schemas g (maxRetryPasses + 1) x :=
    (hsettled x hdeclared).mp ⟨entry, hentry, not_awaits_iff.mpr (hquiet entry hentry)⟩
  obtain ⟨source, deferred, hmade, hfollowed⟩ := hinformed.made_from x _ entry hx hentry
  obtain ⟨fields, htype, hfields⟩ := Building.entry_object hmade hform
  refine ⟨g, entry, fields, hg, hentry, htype, hfields.imp ?_⟩
  rintro ⟨key, _⟩ f ⟨hpart, hkey, hdescription⟩
  refine ⟨hkey, ?_⟩
  rintro path y rfl href hy
  obtain ⟨target, htarget⟩ := Table.exists_get?_of_keys hkeys hy
  have hfollows : (Schema.inline shape).Follows y := .part hpart (.ref href)
  have hknown : ∀ text, target.description = some text ↔
      Described schemas g (maxRetryPasses + 1) y text := by
    intro text
    rw [← hinformed.description_iff y text]
    unfold Building.description
    rw [htarget]
  have hcarried : ∀ text, f.description = some text ↔
      Carries schemas g (maxRetryPasses + 1) x y text := by
    intro text
    rw [hdescription, ← hfollowed y hfollows text]
    unfold describe
    simp only [href]
    rfl
  exact ⟨target, htarget, hknown, hcarried,
    carried_eq_or hg hx hfollows hfinal hcarried hknown⟩

/-- An order names its customer by an alias, declared after it, of a person, declared last. -/
def sales (person : List (String × Schema)) : Table Schema := Table.ofList [
  ("Order", .inline { properties := [("customer", .ref "#/schemas/Buyer")] }),
  ("Buyer", .ref "#/schemas/Person"),
  ("Person", .inline { description := some "Who buys", properties := person })]

/-- A person who leads nowhere is looked up, so the order is made again when the alias is known. -/
theorem sales_described : ∃ r order buyer field, resolveSchemas (sales []) = .ok r ∧
    r.table.get? "Order" = some order ∧ order.type = .object [field] ∧ field.key = "customer" ∧
    order.type.pendingTargets = [] ∧ r.table.get? "Buyer" = some buyer ∧
    buyer.description = some "Who buys" ∧ field.description = buyer.description := by
  have hrun : ((resolveSchemas (sales [])).toOption.map fun r =>
      ((r.table.get? "Order").map (·.type.pendingTargets),
        (r.table.get? "Buyer").map (·.description))) = some (some [], some (some "Who buys")) := by
    decide +kernel
  obtain ⟨r, hr, hrun⟩ := Option.map_eq_some_iff.mp hrun
  have hr := toOption_eq_some_iff.mp hr
  have hquiet : ∀ order, r.table.get? "Order" = some order → order.type.pendingTargets = [] := by
    intro order horder
    rw [horder] at hrun
    exact Option.some.inj (Prod.mk.inj hrun).1
  obtain ⟨g, order, fields, hg, horder, htype, hfields⟩ :=
    fields_described (x := "Order") hr rfl rfl fun order horder n hn => by
      rw [hquiet order horder] at hn
      cases hn
  obtain ⟨field, rest, ⟨hkey, hfield⟩, hrest, rfl⟩ := List.forall₂_cons_left_iff.mp hfields
  obtain rfl := List.forall₂_nil_left_iff.mp hrest
  obtain ⟨buyer, hbuyer, _, _, hsame⟩ := hfield _ "Buyer" rfl rfl (by decide +kernel)
  have hapart : ¬ g.edges.Reaches "Buyer" "Order" := by
    intro hback
    have hreach : g.reachesAny "Buyer" ["Order"] = true :=
      (reachesAny_eq_true_iff hg).mpr ⟨"Order", List.mem_cons_self, hback⟩
    obtain rfl : Graph.ofEdges [("Order", ["Buyer"]), ("Buyer", ["Person"]), ("Person", [])] = g :=
      Except.ok.inj hg
    revert hreach
    decide +kernel
  refine ⟨r, order, buyer, field, hr, horder, htype, hkey, hquiet order horder, hbuyer, ?_,
    hsame.resolve_right fun h => hapart h.2.2⟩
  rw [hbuyer] at hrun
  exact Option.some.inj (Prod.mk.inj hrun).2

/-- A person whose last order leads back is expanded in the order, which is so made but once, before
the alias: nothing is pending, and the customer has no description though the alias has one. -/
theorem sales_undescribed : ∃ r order buyer field,
    resolveSchemas (sales [("last", .ref "#/schemas/Order")]) = .ok r ∧
    (∀ e ∈ r.table.entries, e.2.type.pendingTargets = []) ∧
    r.table.get? "Order" = some order ∧ order.type = .object [field] ∧ field.key = "customer" ∧
    r.table.get? "Buyer" = some buyer ∧ buyer.description = some "Who buys" ∧
    field.description = none := by
  have hrun : ((resolveSchemas (sales [("last", .ref "#/schemas/Order")])).toOption.map fun r =>
      (r.table.entries.map (·.2.type.pendingTargets), r.table.get? "Order",
        (r.table.get? "Buyer").bind (·.description))) = some ([[], [], []], some ⟨.object [{
          key := "customer"
          type := .object [{ key := "last", type := .record }] }], none⟩, some "Who buys") := by
    decide +kernel
  obtain ⟨r, hr, hrun⟩ := Option.map_eq_some_iff.mp hrun
  obtain ⟨hpending, hrun⟩ := Prod.mk.inj hrun
  obtain ⟨horder, hbuyer⟩ := Prod.mk.inj hrun
  obtain ⟨buyer, hbuyer, htext⟩ := Option.bind_eq_some_iff.mp hbuyer
  refine ⟨r, _, buyer, _, toOption_eq_some_iff.mp hr, ?_, horder, rfl, rfl, hbuyer, htext, rfl⟩
  intro e he
  have hnone := List.mem_map_of_mem (f := fun e : String × ResolvedSchema =>
    e.2.type.pendingTargets) he
  rw [hpending] at hnone
  simpa using hnone

end ApiTypes
