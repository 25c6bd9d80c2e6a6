import ApiTypes.Proofs.Resolution.Entries

/-! # Watched expansion

An expansion is watched by a test for every reference with the path on which it is met: it fails at
the first one that does not pass.  A watched expansion ends as it would unwatched exactly if all that
`Visits` tells of passes (`watched_eq_iff`); so these are the references that expansion meets, on the
paths on which it meets them.

Main definitions: `Building.resolveWatched`, `Building.watched`. -/

namespace ApiTypes.Building

/-- What a name becomes on the way along a path, with an error for every reference that does not pass
the test. -/
def resolveWatched (b : Building) (test : List String → String → Bool) :
    (room : Nat) → (path : List String) → String → Except InvalidRef Expansion
  | room, path, name =>
    if !test path name then throw ⟨name⟩
    else if path.contains name then return { type := .record }
    else match b.schemas.get? name with
      | none => return { type := .pending name }
      | some target =>
        if !b.graph.reachesAny name path then return b.lookUp name
        else match room with
          | 0 => return { type := .record }
          | room + 1 => expand ⟨b.resolveWatched test room (path ++ [name]), b.description⟩ target

/-- The lookup for the entry of a name, watched by the test. -/
def watched (b : Building) (test : List String → String → Bool) (name : String) : Lookup :=
  ⟨b.resolveWatched test (maxInlineDepth - 1) [name], b.description⟩

variable {b : Building} {test : List String → String → Bool} {room : Nat} {path : List String}
  {name : String} {s : Schema}

theorem passes_of_resolveWatched {e : Expansion} (h : b.resolveWatched test room path name = .ok e) :
    test path name = true := by
  unfold resolveWatched at h
  by_contra hfails
  rw [if_pos (by simpa using hfails)] at h
  cases h

theorem resolveWatched_inside (htest : test path name = true) (hn : name ∉ path)
    (hs : b.schemas.get? name = some s) (hback : b.graph.reachesAny name path = true) :
    b.resolveWatched test (room + 1) path name =
      expand ⟨b.resolveWatched test room (path ++ [name]), b.description⟩ s := by
  rw [resolveWatched, if_neg (by simp [htest]), if_neg (by simpa using hn), hs]
  simp only [hback, Bool.not_true, Bool.false_eq_true, if_false]

/-- Where a reference passes, watching makes a difference only to what is met further on. -/
theorem resolveWatched_eq (htest : test path name = true)
    (further : ∀ rest s, room = rest + 1 → name ∉ path → b.schemas.get? name = some s →
      b.graph.reachesAny name path = true →
      expand ⟨b.resolveWatched test rest (path ++ [name]), b.description⟩ s =
        expand ⟨b.resolveAt rest (path ++ [name]), b.description⟩ s) :
    b.resolveWatched test room path name = b.resolveAt room path name := by
  unfold resolveWatched resolveAt
  rw [if_neg (by simp [htest])]
  by_cases hn : name ∈ path
  · rw [if_pos (by simpa using hn), if_pos (by simpa using hn)]
  rw [if_neg (by simpa using hn), if_neg (by simpa using hn)]
  cases hs : b.schemas.get? name with
  | none => rfl
  | some s =>
      cases hback : b.graph.reachesAny name path with
      | false => rfl
      | true =>
          cases room with
          | zero => rfl
          | succ rest => exact further rest s rfl hn hs hback

/-- If everything that is met passes, watching makes no difference. -/
theorem expand_watched_of_passes (room : Nat) : ∀ (path : List String) (s : Schema),
    path.length + room = maxInlineDepth →
    (∀ q name, Visits b.schemas b.graph path s q name → test q name = true) →
    expand ⟨b.resolveWatched test room path, b.description⟩ s =
      expand ⟨b.resolveAt room path, b.description⟩ s := by
  have step : ∀ room path s, path.length + room = maxInlineDepth →
      (∀ q name, Visits b.schemas b.graph path s q name → test q name = true) →
      (∀ rest target t, room = rest + 1 →
        (∀ q name, Visits b.schemas b.graph (path ++ [target]) t q name → test q name = true) →
        expand ⟨b.resolveWatched test rest (path ++ [target]), b.description⟩ t =
          expand ⟨b.resolveAt rest (path ++ [target]), b.description⟩ t) →
      expand ⟨b.resolveWatched test room path, b.description⟩ s =
        expand ⟨b.resolveAt room path, b.description⟩ s := by
    intro room path s hlen hpass deeper
    refine expand_congr (fun name hname => ?_) fun _ _ => rfl
    apply resolveWatched_eq (hpass path name (hname.visits path))
    intro rest t hrest hn ht hback
    apply deeper rest name t hrest
    intro q n hv
    exact hpass q n (hname.visits_inside hn ht hback (by omega) hv)
  induction room with
  | zero =>
      intro path s hlen hpass
      exact step 0 path s hlen hpass fun _ _ _ h => nomatch h
  | succ room ih =>
      intro path s hlen hpass
      apply step (room + 1) path s hlen hpass
      intro rest target t hrest hpass
      obtain rfl := Nat.succ.inj hrest
      refine ih (path ++ [target]) t ?_ hpass
      rw [List.length_append, List.length_singleton]
      omega

/-- A watched expansion that ends has met nothing that does not pass. -/
theorem passes_of_expand_watched {q : List String} (hv : Visits b.schemas b.graph path s q name)
    (hlen : path.length + room = maxInlineDepth) {e : Expansion}
    (h : expand ⟨b.resolveWatched test room path, b.description⟩ s = .ok e) :
    test q name = true := by
  induction hv generalizing room e with
  | here href =>
      rw [expand, href] at h
      exact passes_of_resolveWatched h
  | part hs _ ih =>
      obtain ⟨e', he'⟩ := expand_part h _ hs
      exact ih hlen he'
  | @inside path q ref target name s href hn hs hback hlt _ ih =>
      rw [expand, href] at h
      obtain ⟨rest, rfl⟩ : ∃ rest, room = rest + 1 := ⟨room - 1, by omega⟩
      have hroom : (path ++ [target]).length + rest = maxInlineDepth := by
        rw [List.length_append, List.length_singleton]
        omega
      exact ih hroom ((resolveWatched_inside (passes_of_resolveWatched h) hn hs hback).symm.trans h)

/-- The entry of a declared name is made as it is unwatched exactly if every reference that is met on
the way passes. -/
theorem watched_eq_iff (hg : Graph.ofSchemas b.schemas = .ok b.graph) {x : String} {s : Schema}
    (hs : b.schemas.get? x = some s) : expand (b.watched test x) s = expand (b.lookup x) s ↔
      ∀ q name, Visits b.schemas b.graph [x] s q name → test q name = true := by
  constructor
  · intro h q name hv
    obtain ⟨e, he, _⟩ := exists_expanded hg (maxInlineDepth - 1) [x] rfl s
      ⟨_, ofSchemas_targets hg hs⟩
    exact passes_of_expand_watched hv rfl (h.trans he)
  · exact expand_watched_of_passes (maxInlineDepth - 1) [x] s rfl

end ApiTypes.Building
