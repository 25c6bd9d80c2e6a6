import ApiTypes.Proofs.Binding.Steadiness

/-! # Descriptions that are bound alike

Where the paths of two descriptions are related, and related operations are bound alike, all of their
operations are (`bindOperations_related`).  Two operations are bound alike where each step of the
binding ends alike in both: their parameters, their body, their response (`bindOperation_related`).

Main definitions: `Table.Related`, `PathItem.Related`. -/

namespace ApiTypes

open Noting (Matches Steady)

/-! ### Related tables -/

/-- The same reference, or related items. -/
inductive RefOr.Related {α β : Type} (R : α → β → Prop) : RefOr α → RefOr β → Prop
  | ref (path : String) : Related R (.ref path) (.ref path)
  | item {a : α} {b : β} (h : R a b) : Related R (.item a) (.item b)

section tables
variable {α β : Type} {R : α → β → Prop} {t : Table α} {u : Table β}

/-- The same names in the same order, with related values. -/
def Table.Related (R : α → β → Prop) (t : Table α) (u : Table β) : Prop :=
  List.Forall₂ (fun a b => a.1 = b.1 ∧ R a.2 b.2) t.entries u.entries

theorem rel_lookup {l : List (String × α)} {l' : List (String × β)}
    (h : List.Forall₂ (fun a b => a.1 = b.1 ∧ R a.2 b.2) l l') (name : String) :
    Option.Rel R (l.lookup name) (l'.lookup name) := by
  induction h with
  | nil => exact .none
  | @cons a b _ _ hab _ ih =>
      rw [List.lookup_cons, List.lookup_cons, hab.1]
      cases name == b.1 with
      | true => exact .some hab.2
      | false => exact ih

theorem rel_find? {l : List (String × α)} {l' : List (String × β)}
    (h : List.Forall₂ (fun a b => a.1 = b.1 ∧ R a.2 b.2) l l') (p : String → Bool) :
    Option.Rel R ((l.find? fun e => p e.1).map Prod.snd)
      ((l'.find? fun e => p e.1).map Prod.snd) := by
  induction h with
  | nil => exact .none
  | @cons a b _ _ hab _ ih =>
      rw [List.find?_cons, List.find?_cons, hab.1]
      cases p b.1 with
      | true => exact .some hab.2
      | false => exact ih

theorem Table.Related.get? (h : t.Related R u) (name : String) :
    Option.Rel R (t.get? name) (u.get? name) :=
  rel_lookup h name

theorem Table.Related.findSome? (h : t.Related R u) (names : List String) :
    Option.Rel R (names.findSome? t.get?) (names.findSome? u.get?) := by
  induction names with
  | nil => exact .none
  | cons name names ih =>
      rw [List.findSome?_cons, List.findSome?_cons]
      have hget := h.get? name
      generalize t.get? name = o at hget ⊢
      generalize u.get? name = o' at hget ⊢
      cases hget with
      | some hab => exact .some hab
      | none => exact ih

theorem rel_join {o : Option (Option α)} {o' : Option (Option β)}
    (h : Option.Rel (Option.Rel R) o o') : Option.Rel R o.join o'.join := by
  cases h with
  | some h => exact h
  | none => exact .none

/-- The first of two that is there. -/
theorem rel_or {o k : Option α} {o' k' : Option β} (h : Option.Rel R o o')
    (hk : Option.Rel R k k') : Option.Rel R (o.or k) (o'.or k') := by
  cases h with
  | some h => exact .some h
  | none => exact hk

theorem rel_item? {o : Option (RefOr α)} {o' : Option (RefOr β)}
    (h : Option.Rel (RefOr.Related R) o o') :
    Option.Rel R (o.bind RefOr.item?) (o'.bind RefOr.item?) := by
  cases h with
  | none => exact .none
  | some h =>
      cases h with
      | ref path => exact .none
      | item h => exact .some h

theorem Api.declared?_related {first second : Table α} {first' second' : Table β}
    (hfirst : first.Related R first') (hsecond : second.Related R second') (name : String) :
    Option.Rel R (Api.declared? first second name) (Api.declared? first' second' name) := by
  unfold Api.declared?
  have hfound := hfirst.get? name
  generalize first.get? name = o at hfound ⊢
  generalize first'.get? name = o' at hfound ⊢
  cases hfound with
  | some h => exact .some h
  | none => exact hsecond.get? name

end tables

/-! ### Related paths -/

section paths
variable {P : List (RefOr Parameter) → List (RefOr Parameter) → Prop}
  {Q : Operation → Operation → Prop}

/-- Related parameters, and related operations of the same methods. -/
structure PathItem.Related (P : List (RefOr Parameter) → List (RefOr Parameter) → Prop)
    (Q : Operation → Operation → Prop) (item item' : PathItem) : Prop where
  parameters : P item.parameters item'.parameters
  operation : ∀ m, Option.Rel Q (item.operation m) (item'.operation m)

theorem PathItem.Related.operations {item item' : PathItem} (h : item.Related P Q item') :
    List.Forall₂ (fun e e' => e.1 = e'.1 ∧ Q e.2 e'.2) item.operations item'.operations := by
  unfold PathItem.operations
  refine List.rel_filterMap ?_ (List.forall₂_same.mpr fun m _ => (rfl : m = m))
  rintro m _ rfl
  have hop := h.operation m
  dsimp only
  generalize item.operation m = o at hop ⊢
  generalize item'.operation m = o' at hop ⊢
  cases hop with
  | some hop => exact .some ⟨rfl, hop⟩
  | none => exact .none

/-- What is said of two operations under the same path and method. -/
def OperationsRelated (P : List (RefOr Parameter) → List (RefOr Parameter) → Prop)
    (Q : Operation → Operation → Prop)
    (e e' : String × List (RefOr Parameter) × Method × Operation) : Prop :=
  e.1 = e'.1 ∧ P e.2.1 e'.2.1 ∧ e.2.2.1 = e'.2.2.1 ∧ Q e.2.2.2 e'.2.2.2

theorem Api.operations_related {api api' : Api}
    (h : api.paths.Related (PathItem.Related P Q) api'.paths) :
    List.Forall₂ (OperationsRelated P Q) api.operations api'.operations := by
  unfold Api.operations
  refine List.rel_flatMap h ?_
  rintro ⟨url, item⟩ ⟨_, item'⟩ ⟨rfl, hitem⟩
  refine List.forall₂_map_left_iff.mpr (List.forall₂_map_right_iff.mpr ?_)
  refine hitem.operations.imp ?_
  rintro ⟨method, op⟩ ⟨_, op'⟩ ⟨rfl, hop⟩
  exact ⟨rfl, hitem.parameters, rfl, hop⟩

end paths

/-! ### Operations that are bound alike -/

namespace Binding

variable {api api' : Api} {table table' : Table ResolvedSchema} {business : Business} {url : String}
  {method : Method} {ofPath ofPath' : List (RefOr Parameter)} {op op' : Operation}

/-- Responses are bound alike where those of the same status are. -/
theorem bindResponse_related {R : RefOr Response → RefOr Response → Prop}
    (hresponses : op.responses.Related R op'.responses)
    (hR : ∀ r r', R r r' → Matches Eq (referredFields api table method url r)
      (referredFields api' table' method url r')) :
    Matches Eq (bindResponse api table method url op) (bindResponse api' table' method url op') := by
  rw [bindResponse_def, bindResponse_def]
  have hfound := hresponses.findSome? successStatuses
  generalize successStatuses.findSome? op.responses.get? = o at hfound ⊢
  generalize successStatuses.findSome? op'.responses.get? = o' at hfound ⊢
  cases hfound with
  | none => exact .note_pure _ _ rfl
  | some hr => exact hR _ _ hr

/-- Operations are bound alike where their parameters, their bodies and their responses are. -/
theorem bindOperation_related {R : List Parameter → List Parameter → Prop}
    (hsummary : summaryOf op = summaryOf op') (htags : op.tags = op'.tags)
    (hdeclared : Matches R (collectParameters api ofPath op.parameters)
      (collectParameters api' ofPath' op'.parameters))
    (hfields : ∀ ps ps', R ps ps' → Matches Eq
      ((ps.filter (·.location ≠ .body)).mapM fun p =>
        (bindParameter table p : Noting InvalidRef Field))
      ((ps'.filter (·.location ≠ .body)).mapM fun p =>
        (bindParameter table' p : Noting InvalidRef Field)))
    (hbody : ∀ ps ps', R ps ps' → Matches Eq
      (bodySchema api ps op >>= bindBody table method url)
      (bodySchema api' ps' op' >>= bindBody table' method url))
    (hresponse : Matches Eq (bindResponse api table method url op)
      (bindResponse api' table' method url op')) :
    Matches Eq (bindOperation api table business url method ofPath op)
      (bindOperation api' table' business url method ofPath' op') := by
  rw [bindOperation_eq, bindOperation_eq, hsummary, htags]
  refine hdeclared.bind fun ps ps' _ _ hps => ?_
  refine (hfields ps ps' hps).bind_eq fun fields _ => ?_
  rw [← bind_assoc, ← bind_assoc]
  refine (hbody ps ps' hps).bind_eq fun requestBody _ => ?_
  exact hresponse.bind_eq fun responses _ => .pure rfl

end Binding

/-- All operations are bound alike where related ones are. -/
theorem bindOperations_related {api api' : Api} {table table' : Table ResolvedSchema}
    {business : Business} {P : List (RefOr Parameter) → List (RefOr Parameter) → Prop}
    {Q : Operation → Operation → Prop} (hpaths : api.paths.Related (PathItem.Related P Q) api'.paths)
    (hbound : ∀ url method ofPath ofPath' op op', P ofPath ofPath' → Q op op' →
      Matches Eq (Binding.bindOperation api table business url method ofPath op)
        (Binding.bindOperation api' table' business url method ofPath' op')) :
    Matches Eq (bindOperations api table business) (bindOperations api' table' business) := by
  rw [bindOperations_def, bindOperations_def]
  refine Matches.mapM₂_eq ((Api.operations_related hpaths).imp ?_)
  rintro ⟨url, ofPath, method, op⟩ ⟨_, ofPath', _, op'⟩ ⟨rfl, hparameters, rfl, hop⟩
  exact hbound url method ofPath ofPath' op op' hparameters hop

end ApiTypes
