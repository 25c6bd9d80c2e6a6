import ApiTypes.Proofs.Binding.Operations
import ApiTypes.TypeScript.Interface
import Mathlib.Data.List.Nodup

/-! # When names of types repeat

The name of a type says the method and the side, and of the url only the names of its segments, one
after the other (`typeName_eq_iff`).  So names repeat exactly where two urls with the same method have
segments with the same names, and both have the side (`typeNames_nodup_iff`).

Main definitions: `pathName`, `BoundOperation.typeNameOf`, `typeNames`. -/

namespace ApiTypes

/-! ### What a name says -/

/-- The names of the segments of a path, one after the other. -/
def pathName (url : String) : List Char :=
  (TypeName.segments url.toList).flatMap TypeName.segmentName

/-- No name of a method starts another one. -/
theorem methodName_prefix_free {m m' : Method}
    (h : TypeName.methodName m <+: TypeName.methodName m') : m = m' := by
  have hall : ∀ m ∈ Method.all, ∀ m' ∈ Method.all,
      TypeName.methodName m <+: TypeName.methodName m' → m = m' := by
    decide +kernel
  exact hall m (Method.mem_all m) m' (Method.mem_all m') h

theorem methodName_append_inj {m m' : Method} {s t : List Char}
    (h : TypeName.methodName m ++ s = TypeName.methodName m' ++ t) : m = m' ∧ s = t := by
  have hmethod : m = m' := by
    have hleft : TypeName.methodName m <+: TypeName.methodName m' ++ t :=
      h ▸ List.prefix_append _ s
    rcases List.prefix_or_prefix_of_prefix hleft (List.prefix_append _ t) with h | h
    · exact methodName_prefix_free h
    · exact (methodName_prefix_free h).symm
  subst hmethod
  exact ⟨rfl, List.append_cancel_left h⟩

theorem suffix_append_inj {role role' : Role} {s t : List Char}
    (h : s ++ role.suffix = t ++ role'.suffix) : s = t ∧ role = role' := by
  have hlength : ∀ r : Role, r.suffix.length = 7 := by
    intro r
    cases r <;> rfl
  obtain ⟨hstart, hsuffix⟩ := List.append_inj' h ((hlength role).trans (hlength role').symm)
  refine ⟨hstart, ?_⟩
  cases role <;> cases role' <;> first | rfl | exact absurd hsuffix (by decide)

/-- Under one business a name tells the method, the side and the names of the segments, and nothing
else. -/
theorem typeName_eq_iff {m m' : Method} {url url' : String} {role role' : Role} {b : Business} :
    typeName m url role b = typeName m' url' role' b ↔
      m = m' ∧ role = role' ∧ pathName url = pathName url' := by
  constructor
  · intro h
    have hchars := congrArg String.toList h
    unfold typeName at hchars
    rw [String.toList_ofList, String.toList_ofList] at hchars
    unfold TypeName.chars at hchars
    -- After the side both names go on alike: with the suffix of the business and its version.
    have hfront := List.append_cancel_right (List.append_cancel_right hchars)
    obtain ⟨hpath, hrole⟩ := suffix_append_inj hfront
    obtain ⟨hmethod, hpath⟩ := methodName_append_inj hpath
    exact ⟨hmethod, hrole, hpath⟩
  · rintro ⟨rfl, rfl, hpath⟩
    unfold pathName at hpath
    unfold typeName TypeName.chars
    rw [hpath]

/-! ### The names of all operations -/

/-- The name of the type of a side, where the side has fields. -/
def BoundOperation.typeNameOf (o : BoundOperation) : Role → Option String
  | .request => o.requestTypeName
  | .response => o.responseTypeName

/-- The names of the types of operations, in order. -/
def typeNames (ops : List BoundOperation) : List String :=
  ops.flatMap fun o => (o.typeNameOf .request).toList ++ (o.typeNameOf .response).toList

/-- The interfaces have these names. -/
theorem map_name_interfacesOf (name : String) (policy : Policy) (ops : List BoundOperation) :
    (interfacesOf name policy ops).map (·.name) = typeNames ops := by
  unfold interfacesOf typeNames
  rw [List.map_flatMap]
  congr 1
  funext o
  unfold TypeScript.interfacesOf BoundOperation.typeNameOf
  cases o.requestTypeName <;> cases o.responseTypeName <;> rfl

/-- The sides of an operation that have a name. -/
def BoundOperation.sides (o : BoundOperation) : List Role :=
  [Role.request, .response].filter fun role => (o.typeNameOf role).isSome

theorem BoundOperation.mem_sides_iff {o : BoundOperation} {role : Role} :
    role ∈ o.sides ↔ (o.typeNameOf role).isSome = true := by
  unfold sides
  rw [List.mem_filter]
  exact and_iff_right (by cases role <;> decide)

/-- What the names of the types of operations are made of, besides the business. -/
def namedSides (ops : List BoundOperation) : List (Method × String × Role) :=
  ops.flatMap fun o => o.sides.map fun role => (o.method, o.url, role)

theorem mem_namedSides_iff {ops : List BoundOperation} {m : Method} {url : String} {role : Role} :
    (m, url, role) ∈ namedSides ops ↔
      ∃ o ∈ ops, o.method = m ∧ o.url = url ∧ (o.typeNameOf role).isSome = true := by
  unfold namedSides
  rw [List.mem_flatMap]
  refine exists_congr fun o => and_congr_right fun _ => ?_
  rw [List.mem_map]
  constructor
  · rintro ⟨role', hrole, heq⟩
    simp only [Prod.mk.injEq] at heq
    obtain ⟨rfl, rfl, rfl⟩ := heq
    exact ⟨rfl, rfl, BoundOperation.mem_sides_iff.mp hrole⟩
  · rintro ⟨rfl, rfl, hrole⟩
    exact ⟨role, BoundOperation.mem_sides_iff.mpr hrole, rfl⟩

/-- Operations at different places have different sides to name. -/
theorem nodup_namedSides {ops : List BoundOperation}
    (h : (ops.map fun o => (o.url, o.method)).Nodup) : (namedSides ops).Nodup := by
  unfold namedSides
  rw [List.nodup_flatMap]
  constructor
  · intro o _
    refine List.Nodup.map ?_ (List.Nodup.filter _ (by decide))
    intro role role' heq
    simpa using heq
  · refine (List.pairwise_map.mp h).imp ?_
    intro o o' hne key hkey hkey'
    obtain ⟨role, _, rfl⟩ := List.mem_map.mp hkey
    obtain ⟨role', _, heq⟩ := List.mem_map.mp hkey'
    simp only [Prod.mk.injEq] at heq
    exact hne (Prod.ext heq.2.1.symm heq.1.symm)

section
variable {api : Api} {table : Table ResolvedSchema} {business : Business}
  {ops : List BoundOperation}

/-- An operation keeps its place, and its types have the names made for them. -/
theorem Binding.typeNameOf_eq {url : String} {method : Method} {ofPath : List (RefOr Parameter)}
    {op : Operation} {o : BoundOperation}
    (h : Yields (bindOperation api table business url method ofPath op) o) :
    o.url = url ∧ o.method = method ∧
      ∀ role, ∀ name ∈ o.typeNameOf role, name = typeName method url role business := by
  have hif : ∀ (c : Bool) (made : String), ∀ name ∈ if c then some made else none, name = made := by
    intro c made name hname
    cases c with
    | false => cases hname
    | true => exact (Option.some.inj hname).symm
  obtain ⟨fields, schema, requestBody, responses, _, _, _, _, rfl⟩ := exists_bound h
  refine ⟨rfl, rfl, ?_⟩
  intro role name hname
  cases role with
  | request => exact hif _ _ name hname
  | response => exact hif _ _ name hname

variable (h : Yields (bindOperations api table business) ops)
include h

/-- The operations stand at the places of those that are declared. -/
theorem places_of_bindOperations :
    ops.map (fun o => (o.url, o.method)) = api.operations.map fun e => (e.1, e.2.2.1) := by
  rw [bindOperations_def] at h
  have heach := h.mapM
  clear h
  generalize api.operations = operations at heach ⊢
  induction heach with
  | nil => rfl
  | cons hfirst _ ih =>
      obtain ⟨hurl, hmethod, _⟩ := Binding.typeNameOf_eq hfirst
      rw [List.map_cons, List.map_cons, ih, hurl, hmethod]

theorem typeNames_eq : typeNames ops =
    (namedSides ops).map fun (m, url, role) => typeName m url role business := by
  unfold typeNames namedSides
  rw [List.map_flatMap]
  apply List.flatMap_congr
  intro o ho
  obtain ⟨url, item, method, op, _, _, hbound⟩ := exists_operation h ho
  obtain ⟨rfl, rfl, hnames⟩ := Binding.typeNameOf_eq hbound
  unfold BoundOperation.sides
  cases hrequest : o.typeNameOf .request with
  | none =>
      cases hresponse : o.typeNameOf .response with
      | none => simp [hrequest, hresponse]
      | some name => simp [hrequest, hresponse, hnames .response name hresponse]
  | some name =>
      have hname := hnames .request name hrequest
      cases hresponse : o.typeNameOf .response with
      | none => simp [hrequest, hresponse, hname]
      | some name' => simp [hrequest, hresponse, hname, hnames .response name' hresponse]

end

/-- The types of the operations of a description, and so their interfaces, have distinct names
exactly when no two operations with the same method and different urls have both a name for the same
side, and segments with the same names. -/
theorem typeNames_nodup_iff {api : Api} {table : Table ResolvedSchema} {business : Business}
    {ops : List BoundOperation} (hops : (bindOperations api table business).result = .ok ops) :
    (∀ name policy, (interfacesOf name policy ops).map (·.name) = typeNames ops) ∧
      ((typeNames ops).Nodup ↔ ∀ o ∈ ops, ∀ o' ∈ ops, ∀ role, o.method = o'.method →
        (o.typeNameOf role).isSome = true → (o'.typeNameOf role).isSome = true →
        pathName o.url = pathName o'.url → o.url = o'.url) := by
  refine ⟨fun name policy => map_name_interfacesOf name policy ops, ?_⟩
  have h := Noting.yields_of_result hops
  have hplaces : (ops.map fun o => (o.url, o.method)).Nodup := by
    rw [places_of_bindOperations h]
    exact api.nodup_places
  rw [typeNames_eq h, List.nodup_map_iff_inj_on (nodup_namedSides hplaces)]
  constructor
  · intro hinj o ho o' ho' role hmethod hrole hrole' hpath
    have heq := hinj _ (mem_namedSides_iff.mpr ⟨o, ho, rfl, rfl, hrole⟩) _
      (mem_namedSides_iff.mpr ⟨o', ho', rfl, rfl, hrole'⟩)
      (typeName_eq_iff.mpr ⟨hmethod, rfl, hpath⟩)
    exact (Prod.mk.inj (Prod.mk.inj heq).2).1
  · rintro hdiff ⟨m, url, role⟩ hkey ⟨m', url', role'⟩ hkey' hname
    obtain ⟨rfl, rfl, hpath⟩ := typeName_eq_iff.mp hname
    obtain ⟨o, ho, hmethod, rfl, hrole⟩ := mem_namedSides_iff.mp hkey
    obtain ⟨o', ho', hmethod', rfl, hrole'⟩ := mem_namedSides_iff.mp hkey'
    rw [hdiff o ho o' ho' role (hmethod.trans hmethod'.symm) hrole hrole' hpath]

/-- Two paths, each of which has something to ask for. -/
def listing (first second : String) : Api where
  swagger := some "2.0"
  info := { title := "Pets", version := "1" }
  paths := Table.ofList ([first, second].map fun url => (url, {
    operation := fun
      | .get => some { parameters := [.item { name := "kind", location := .query }] }
      | _ => none }))

/-- Names that differ in more than what they leave out are distinct. -/
theorem listing_distinct : ∃ r ops,
    resolveSchemas (listing "/pets" "/pets/{id}").schemas = .ok r ∧
    (bindOperations (listing "/pets" "/pets/{id}") r.table {}).result = .ok ops ∧
    typeNames ops = ["GetPetsReqType", "GetPetsIdReqType"] ∧
    ∀ o ∈ ops, ∀ o' ∈ ops, ∀ role, o.method = o'.method →
      (o.typeNameOf role).isSome = true → (o'.typeNameOf role).isSome = true →
      pathName o.url = pathName o'.url → o.url = o'.url := by
  have hnames : ((resolveSchemas (listing "/pets" "/pets/{id}").schemas).toOption.bind fun r =>
      (bindOperations (listing "/pets" "/pets/{id}") r.table {}).result.toOption.map typeNames) =
        some ["GetPetsReqType", "GetPetsIdReqType"] := by
    decide +kernel
  obtain ⟨r, ops, hr, hops, hnames⟩ := exists_bindOperations hnames
  refine ⟨r, ops, hr, hops, hnames, (typeNames_nodup_iff hops).2.mp ?_⟩
  rw [hnames]
  decide

/-- The segment that names leave out makes no difference. -/
theorem listing_repeated : ∃ r ops,
    resolveSchemas (listing "/pets" "/api/pets").schemas = .ok r ∧
    (bindOperations (listing "/pets" "/api/pets") r.table {}).result = .ok ops ∧
    typeNames ops = ["GetPetsReqType", "GetPetsReqType"] ∧ ¬ (typeNames ops).Nodup := by
  have hnames : ((resolveSchemas (listing "/pets" "/api/pets").schemas).toOption.bind fun r =>
      (bindOperations (listing "/pets" "/api/pets") r.table {}).result.toOption.map typeNames) =
        some ["GetPetsReqType", "GetPetsReqType"] := by
    decide +kernel
  obtain ⟨r, ops, hr, hops, hnames⟩ := exists_bindOperations hnames
  refine ⟨r, ops, hr, hops, hnames, ?_⟩
  rw [hnames]
  decide

end ApiTypes
