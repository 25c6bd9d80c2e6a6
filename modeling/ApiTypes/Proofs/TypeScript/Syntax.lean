import ApiTypes.Proofs.TypeScript.Tokens

/-! # Types as tokens

Types whose keys and literals are legible are written in tokens that can be told apart
(`separated_tokens`), and no two of them in the same text (`TypeExpr.Legible.chars_inj`): the first
token tells what sort of type it is (`head_tokens`), and the parts are told in their order, each
closed by a sign that does not continue it (`TypeExpr.Legible.readable`).

Main definitions: `Literal.IsScalar`, `IsKey`, `TypeExpr.Legible`, `TypeExpr.tokens`,
`TypeExpr.Readable`. -/

namespace ApiTypes

/-- A literal that is a single value and no real number. -/
inductive Literal.IsScalar : Literal → Prop
  | null : IsScalar .null
  | bool (b : Bool) : IsScalar (.bool b)
  | integer (n : Int) : IsScalar (.integer n)
  | text (s : String) : IsScalar (.text s)

/-- Is the key made of ASCII letters and digits, dollar signs, underscores, hyphens and dots? -/
def IsKey (key : String) : Prop :=
  key ≠ "" ∧ ∀ c ∈ key.toList, c.isAlphanum = true ∨ c ∈ ['$', '_', '-', '.']

instance (key : String) : Decidable (IsKey key) :=
  decidable_of_iff
    (key ≠ "" ∧ key.toList.all (fun c => c.isAlphanum || ['$', '_', '-', '.'].contains c) = true)
    (by simp only [IsKey, List.all_eq_true, Bool.or_eq_true, List.contains_iff_mem])

namespace TypeScript

/-- The keys and literals in the type are legible. -/
inductive TypeExpr.Legible : TypeExpr → Prop
  | keyword (p : Primitive) : Legible (.keyword p)
  | union {v : Literal} {vs : List Literal} : (∀ w ∈ v :: vs, w.IsScalar) → Legible (.union v vs)
  | array {item : TypeExpr} : Legible item → Legible (.array item)
  | object {m : Member} {ms : List Member} : (∀ n ∈ m :: ms, IsKey n.key) →
      (∀ n ∈ m :: ms, Legible n.type) → Legible (.object m ms)
  | record : Legible .record
  | any : Legible .any

/-! ### The tokens of a type -/

/-- The token of a literal. -/
def literalToken : Literal → Token
  | .text s => .text s.toList
  | v => .word v.chars

/-- The tokens of the literals of a union after the first. -/
def unionTokens : List Literal → List Token
  | [] => []
  | v :: vs => .sign ' ' :: .sign '|' :: .sign ' ' :: literalToken v :: unionTokens vs

/-- The token of a key. -/
def keyToken (key : String) : Token :=
  if isQuotedKey key.toList then .text key.toList else .word key.toList

mutual
/-- The tokens of a type. -/
def TypeExpr.tokens : TypeExpr → List Token
  | .keyword p => [.word p.name.toList]
  | .union v vs => literalToken v :: unionTokens vs
  | .array item => .word "Array".toList :: .sign '<' :: (item.tokens ++ [.sign '>'])
  | .object m ms =>
    .sign '{' :: .sign ' ' :: (m.tokens ++ (membersTokens ms ++ [.sign ' ', .sign '}']))
  | .record =>
    [.word "Record".toList, .sign '<', .word "string".toList, .sign ',', .sign ' ',
      .word "any".toList, .sign '>']
  | .any => [.word "any".toList]

/-- The tokens of a member. -/
def Member.tokens : Member → List Token
  | ⟨key, isOptional, type⟩ =>
    keyToken key ::
      ((if isOptional then [.sign '?'] else []) ++ .sign ':' :: .sign ' ' :: type.tokens)

/-- The tokens of the members of an object after the first. -/
def membersTokens : List Member → List Token
  | [] => []
  | m :: ms => .sign ';' :: .sign ' ' :: (m.tokens ++ membersTokens ms)
end

theorem spell_literalToken (v : Literal) (ts : List Token) :
    spell (literalToken v :: ts) = literalChars v ++ spell ts := by
  cases v <;> rfl

theorem spell_unionTokens (vs : List Literal) : spell (unionTokens vs) = unionChars vs := by
  induction vs with
  | nil => rfl
  | cons v vs ih =>
      rw [unionTokens, unionChars, ← ih, spell_sign, spell_sign, spell_sign, spell_literalToken]
      rfl

theorem spell_keyToken (key : String) (ts : List Token) :
    spell (keyToken key :: ts) = keyChars key.toList ++ spell ts := by
  unfold keyToken keyChars
  split <;> rfl

theorem openArray_append (s : List Char) : "Array<".toList ++ s = "Array".toList ++ '<' :: s := rfl

mutual
/-- The tokens of a type are a way to cut its text. -/
theorem spell_tokens : ∀ t : TypeExpr, spell t.tokens = t.chars
  | .keyword p => List.append_nil _
  | .union v vs => by
      rw [TypeExpr.tokens, spell_literalToken, spell_unionTokens]
      rfl
  | .array item => by
      rw [TypeExpr.tokens, spell_word, spell_sign, spell_append, spell_tokens item,
        TypeExpr.chars_array, List.append_assoc]
      exact (openArray_append (item.chars ++ ['>'])).symm
  | .object m ms => by
      rw [TypeExpr.tokens, spell_sign, spell_sign, spell_append, spell_append, spell_member m,
        spell_membersTokens ms, TypeExpr.chars_object]
      simp [spell, Token.chars]
  | .record => rfl
  | .any => rfl

theorem spell_member : ∀ m : Member, spell m.tokens = m.chars
  | ⟨key, isOptional, type⟩ => by
      rw [Member.tokens, spell_keyToken, spell_append, spell_sign, spell_sign, spell_tokens type,
        Member.chars]
      cases isOptional <;> simp [spell, Token.chars]

theorem spell_membersTokens : ∀ ms : List Member, spell (membersTokens ms) = membersChars ms
  | [] => rfl
  | m :: ms => by
      rw [membersTokens, spell_sign, spell_sign, spell_append, spell_member m,
        spell_membersTokens ms, membersChars]
      rfl
end

/-! ### They stand apart -/

theorem Separated.singleton_word {w : List Char} (hne : w ≠ []) (hw : w.all isWordChar = true) :
    Separated [.word w] :=
  .word hne (List.all_eq_true.mp hw) (fun _ hc => nomatch hc) .nil

/-- The characters of a whole number are digits, with a minus in front or without. -/
theorem mem_integerChars {n : Int} {c : Char} (h : c ∈ Literal.integerChars n) :
    c = '-' ∨ c.isDigit = true := by
  unfold Literal.integerChars at h
  rcases List.mem_append.mp h with hsign | hdigit
  · split at hsign
    · exact .inl (List.mem_singleton.mp hsign)
    · cases hsign
  · exact .inr (Nat.isDigit_of_mem_toDigits (by decide) (by decide) hdigit)

theorem integerChars_ne_nil (n : Int) : Literal.integerChars n ≠ [] :=
  List.append_ne_nil_of_right_ne_nil _ Nat.toDigits_ne_nil

theorem separated_literalToken {v : Literal} (h : v.IsScalar) : Separated [literalToken v] := by
  cases h with
  | null => exact .singleton_word (by decide) (by decide)
  | bool b => cases b <;> exact .singleton_word (by decide) (by decide)
  | integer n =>
      refine .singleton_word (integerChars_ne_nil n) (List.all_eq_true.mpr fun c hc => ?_)
      rcases mem_integerChars hc with rfl | hdigit
      · rfl
      · simp [isWordChar, Char.isAlphanum, hdigit]
  | text s => exact .text .nil

theorem separated_union {v : Literal} {vs : List Literal} (h : ∀ w ∈ v :: vs, w.IsScalar) :
    Separated (literalToken v :: unionTokens vs) := by
  induction vs generalizing v with
  | nil => exact separated_literalToken (h v List.mem_cons_self)
  | cons w vs ih =>
      have hrest := ih fun x hx => h x (List.mem_cons_of_mem v hx)
      exact (separated_literalToken (h v List.mem_cons_self)).append_sign rfl
        (.sign rfl (.sign rfl hrest))

theorem separated_keyToken {key : String} (h : IsKey key) : Separated [keyToken key] := by
  obtain ⟨hne, hall⟩ := h
  unfold keyToken
  split
  · exact .text .nil
  · next hplain =>
    refine .singleton_word (String.toList_eq_nil_iff.not.mpr hne)
      (List.all_eq_true.mpr fun c hc => ?_)
    have hmark : ¬ ((c = '-' ∨ c = '_') ∨ c = '.') := by
      intro hmark
      exact hplain (List.any_eq_true.mpr ⟨c, hc, by simpa using hmark⟩)
    have := hall c hc
    simp only [List.mem_cons, List.not_mem_nil, or_false] at this
    simp only [isWordChar, Bool.or_eq_true, beq_iff_eq]
    tauto

theorem separated_member {m : Member} (hkey : IsKey m.key) (htype : Separated m.type.tokens) :
    Separated m.tokens := by
  obtain ⟨key, isOptional, type⟩ := m
  have htail : Separated (.sign ' ' :: type.tokens) := .sign rfl htype
  rw [Member.tokens]
  cases isOptional with
  | true => exact (separated_keyToken hkey).append_sign rfl (.sign rfl htail)
  | false => exact (separated_keyToken hkey).append_sign rfl htail

/-- Members that are put behind tokens that stand apart. -/
theorem separated_append_members {ms : List Member} (h : ∀ m ∈ ms, Separated m.tokens) :
    ∀ {ts : List Token}, Separated ts → Separated (ts ++ membersTokens ms) := by
  induction ms with
  | nil =>
      intro ts ht
      rwa [membersTokens, List.append_nil]
  | cons m ms ih =>
      intro ts ht
      have hfirst : Separated (.sign ' ' :: m.tokens) := .sign rfl (h m List.mem_cons_self)
      exact ht.append_sign rfl (ih (fun n hn => h n (List.mem_cons_of_mem m hn)) hfirst)

theorem separated_tokens {t : TypeExpr} (h : t.Legible) : Separated t.tokens := by
  induction h with
  | keyword p => cases p <;> exact .singleton_word (by decide) (by decide)
  | union hscalar => exact separated_union hscalar
  | array _ ih =>
      exact (Separated.singleton_word (by decide) (by decide)).append_sign rfl
        (ih.append_sign rfl .nil)
  | @object m ms hkeys _ ih =>
      have hmembers : ∀ n ∈ m :: ms, Separated n.tokens := fun n hn =>
        separated_member (hkeys n hn) (ih n hn)
      have hall := separated_append_members
        (fun n hn => hmembers n (List.mem_cons_of_mem m hn)) (hmembers m List.mem_cons_self)
      rw [TypeExpr.tokens, ← List.append_assoc]
      exact .sign rfl (.sign rfl (hall.append_sign rfl (.sign rfl .nil)))
  | record =>
      have hany : Separated [.word "any".toList] := .singleton_word (by decide) (by decide)
      have hstring : Separated [.word "string".toList] := .singleton_word (by decide) (by decide)
      exact (Separated.singleton_word (by decide) (by decide)).append_sign rfl
        (hstring.append_sign rfl (.sign rfl (hany.append_sign rfl .nil)))
  | any => exact .singleton_word (by decide) (by decide)

/-! ### What the first token tells -/

/-- What differs in the first token of types: their sort, and the first literal of a union. -/
inductive Head where
  | keyword (p : Primitive)
  | union (first : Literal)
  | array
  | object
  | record
  | any

/-- What the first token of a type tells of it. -/
def TypeExpr.head : TypeExpr → Head
  | .keyword p => .keyword p
  | .union v _ => .union v
  | .array _ => .array
  | .object _ _ => .object
  | .record => .record
  | .any => .any

/-- The words that types begin with, but for whole numbers. -/
def typeWords : List (List Char × Head) :=
  [("string".toList, .keyword .string), ("number".toList, .keyword .number),
    ("boolean".toList, .keyword .boolean), ("Array".toList, .array), ("Record".toList, .record),
    ("any".toList, .any), ("null".toList, .union .null), ("true".toList, .union (.bool true)),
    ("false".toList, .union (.bool false))]

/-- The whole number that is written. -/
def integerOf : List Char → Int
  | '-' :: ds => -(Nat.ofDigitChars 10 ds 0 : Int)
  | ds => Nat.ofDigitChars 10 ds 0

/-- What types have that begin with the token. -/
def headOf : Token → Head
  | .sign _ => .object
  | .word w => (typeWords.lookup w).getD (.union (.integer (integerOf w)))
  | .text s => .union (.text (String.ofList s))

theorem integerOf_integerChars (n : Int) : integerOf (Literal.integerChars n) = n := by
  unfold Literal.integerChars Decimal.digitsOf
  split
  · next hneg =>
    change -(Nat.ofDigitChars 10 (Nat.toDigits 10 n.natAbs) 0 : Int) = n
    rw [Nat.ofDigitChars_ten_toDigits]
    omega
  · next hpos =>
    rw [List.nil_append]
    unfold integerOf
    split
    · next ds heq =>
      have hmem : '-' ∈ Nat.toDigits 10 n.natAbs := heq ▸ List.mem_cons_self
      exact absurd (Nat.isDigit_of_mem_toDigits (by decide) (by decide) hmem) (by decide)
    · rw [Nat.ofDigitChars_ten_toDigits]
      omega

/-- No whole number is one of the words: each has a letter. -/
theorem lookup_integerChars (n : Int) : typeWords.lookup (Literal.integerChars n) = none := by
  have hletter : typeWords.all (fun p => p.1.any fun c => c != '-' && !c.isDigit) = true := by
    decide
  refine List.lookup_eq_none_iff.mpr fun p hp => bne_iff_ne.mpr fun heq => ?_
  obtain ⟨c, hc, hother⟩ := List.any_eq_true.mp (List.all_eq_true.mp hletter p hp)
  simp only [Bool.and_eq_true, bne_iff_ne, Bool.not_eq_true'] at hother
  rcases mem_integerChars (heq ▸ hc) with hminus | hdigit
  · exact hother.1 hminus
  · exact Bool.false_ne_true (hother.2.symm.trans hdigit)

theorem headOf_literalToken {v : Literal} (h : v.IsScalar) :
    headOf (literalToken v) = .union v := by
  cases h with
  | null => rfl
  | bool b => cases b <;> rfl
  | integer n =>
      change (typeWords.lookup (Literal.integerChars n)).getD
        (.union (.integer (integerOf (Literal.integerChars n)))) = _
      rw [lookup_integerChars, Option.getD_none, integerOf_integerChars]
  | text s =>
      change Head.union (.text (String.ofList s.toList)) = _
      rw [String.ofList_toList]

theorem head_tokens {t : TypeExpr} (h : t.Legible) (ts : List Token) :
    (t.tokens ++ ts).head?.map headOf = some t.head := by
  cases h with
  | keyword p => cases p <;> rfl
  | @union v vs hscalar =>
      exact congrArg some (headOf_literalToken (hscalar v List.mem_cons_self))
  | array _ | object _ _ | record | any => rfl

theorem literalToken_inj {v w : Literal} (hv : v.IsScalar) (hw : w.IsScalar)
    (h : literalToken v = literalToken w) : v = w := by
  have hhead := congrArg headOf h
  rw [headOf_literalToken hv, headOf_literalToken hw] at hhead
  exact Head.union.inj hhead

/-! ### Unions, keys and members -/

/-- What follows a type does not continue it as a union. -/
def Closes (ts : List Token) : Prop := ∀ us, ts ≠ .sign ' ' :: .sign '|' :: us

theorem closes_sign {c : Char} (h : c ≠ ' ') (ts : List Token) : Closes (.sign c :: ts) := by
  intro us heq
  exact h (Token.sign.inj (List.cons.inj heq).1)

theorem closes_end (ts : List Token) : Closes (.sign ' ' :: .sign '}' :: ts) := by
  intro us heq
  exact absurd (Token.sign.inj (List.cons.inj (List.cons.inj heq).2).1) (by decide)

theorem closes_members (ms : List Member) (ts : List Token) :
    Closes (membersTokens ms ++ .sign ' ' :: .sign '}' :: ts) := by
  cases ms with
  | nil => exact closes_end ts
  | cons m ms => exact closes_sign (by decide) _

theorem unionTokens_append_inj {vs ws : List Literal} (hv : ∀ v ∈ vs, v.IsScalar)
    (hw : ∀ w ∈ ws, w.IsScalar) {xs ys : List Token} (hx : Closes xs) (hy : Closes ys)
    (h : unionTokens vs ++ xs = unionTokens ws ++ ys) : vs = ws ∧ xs = ys := by
  induction vs generalizing ws with
  | nil =>
      cases ws with
      | nil => exact ⟨rfl, h⟩
      | cons w ws => exact absurd h (hx _)
  | cons v vs ih =>
      cases ws with
      | nil => exact absurd h.symm (hy _)
      | cons w ws =>
          simp only [unionTokens, List.cons_append, List.cons.injEq, true_and] at h
          obtain ⟨hfirst, hrest⟩ := h
          obtain rfl := literalToken_inj (hv v List.mem_cons_self) (hw w List.mem_cons_self) hfirst
          obtain ⟨rfl, htail⟩ := ih (fun x hx => hv x (List.mem_cons_of_mem v hx))
            (fun x hx => hw x (List.mem_cons_of_mem v hx)) hrest
          exact ⟨rfl, htail⟩

/-- The key that a token stands for. -/
def keyOf : Token → String
  | .sign _ => ""
  | .word s | .text s => String.ofList s

theorem keyOf_keyToken (key : String) : keyOf (keyToken key) = key := by
  unfold keyToken
  split <;> exact String.ofList_toList

/-- The type is told by its tokens, whatever closes it. -/
def TypeExpr.Readable (t : TypeExpr) : Prop :=
  ∀ {u : TypeExpr} {xs ys : List Token}, u.Legible → Closes xs → Closes ys →
    t.tokens ++ xs = u.tokens ++ ys → t = u ∧ xs = ys

theorem member_append_inj {m n : Member} (hm : m.type.Readable) (hn : n.type.Legible)
    {xs ys : List Token} (hx : Closes xs) (hy : Closes ys)
    (h : m.tokens ++ xs = n.tokens ++ ys) : m = n ∧ xs = ys := by
  obtain ⟨key, isOptional, type⟩ := m
  obtain ⟨key', isOptional', type'⟩ := n
  rw [Member.tokens, Member.tokens, List.cons_append, List.cons_append] at h
  obtain ⟨hkey, htail⟩ := List.cons.inj h
  obtain rfl : key = key' := by rw [← keyOf_keyToken key, hkey, keyOf_keyToken]
  have hboth : isOptional = isOptional' ∧ type.tokens ++ xs = type'.tokens ++ ys := by
    cases isOptional <;> cases isOptional' <;> simp at htail <;> exact ⟨rfl, htail⟩
  obtain ⟨rfl, htype⟩ := hboth
  obtain ⟨rfl, hrest⟩ := hm hn hx hy htype
  exact ⟨rfl, hrest⟩

theorem members_append_inj {ms ns : List Member} (hm : ∀ m ∈ ms, m.type.Readable)
    (hn : ∀ n ∈ ns, n.type.Legible) {xs ys : List Token}
    (h : membersTokens ms ++ .sign ' ' :: .sign '}' :: xs =
      membersTokens ns ++ .sign ' ' :: .sign '}' :: ys) : ms = ns ∧ xs = ys := by
  induction ms generalizing ns with
  | nil =>
      cases ns with
      | nil => exact ⟨rfl, (List.cons.inj (List.cons.inj h).2).2⟩
      | cons n ns => exact absurd (Token.sign.inj (List.cons.inj h).1) (by decide)
  | cons m ms ih =>
      cases ns with
      | nil => exact absurd (Token.sign.inj (List.cons.inj h).1) (by decide)
      | cons n ns =>
          simp only [membersTokens, List.cons_append, List.append_assoc, List.cons.injEq,
            true_and] at h
          obtain ⟨rfl, hrest⟩ := member_append_inj (hm m List.mem_cons_self)
            (hn n List.mem_cons_self) (closes_members ms xs) (closes_members ns ys) h
          obtain ⟨rfl, htail⟩ := ih (fun p hp => hm p (List.mem_cons_of_mem m hp))
            (fun p hp => hn p (List.mem_cons_of_mem m hp)) hrest
          exact ⟨rfl, htail⟩

/-! ### Types -/

theorem head_eq {t u : TypeExpr} (ht : t.Legible) (hu : u.Legible) {xs ys : List Token}
    (h : t.tokens ++ xs = u.tokens ++ ys) : t.head = u.head :=
  Option.some.inj (by rw [← head_tokens ht xs, h, head_tokens hu])

theorem TypeExpr.Legible.readable {t : TypeExpr} (ht : t.Legible) : t.Readable := by
  induction ht with
  | keyword p =>
      intro u xs ys hu _ _ h
      have hhead := head_eq (.keyword p) hu h
      cases hu with
      | keyword q =>
          cases hhead
          exact ⟨rfl, (List.cons.inj h).2⟩
      | union _ | array _ | object _ _ | record | any => cases hhead
  | @union v vs hv =>
      intro u xs ys hu hx hy h
      have hhead := head_eq (.union hv) hu h
      cases hu with
      | union hw =>
          cases hhead
          obtain ⟨rfl, htail⟩ := unionTokens_append_inj
            (fun x hmem => hv x (List.mem_cons_of_mem v hmem))
            (fun x hmem => hw x (List.mem_cons_of_mem v hmem)) hx hy (List.cons.inj h).2
          exact ⟨rfl, htail⟩
      | keyword _ | array _ | object _ _ | record | any => cases hhead
  | @array item hitem ih =>
      intro u xs ys hu _ _ h
      have hhead := head_eq (.array hitem) hu h
      cases hu with
      | array hother =>
          simp only [TypeExpr.tokens, List.cons_append, List.append_assoc, List.cons.injEq,
            true_and, List.nil_append] at h
          obtain ⟨rfl, htail⟩ :=
            ih hother (closes_sign (by decide) xs) (closes_sign (by decide) ys) h
          exact ⟨rfl, (List.cons.inj htail).2⟩
      | keyword _ | union _ | object _ _ | record | any => cases hhead
  | @object m ms hkeys htypes ih =>
      intro u xs ys hu _ _ h
      have hhead := head_eq (.object hkeys htypes) hu h
      cases hu with
      | @object n ns _ hothers =>
          simp only [TypeExpr.tokens, List.cons_append, List.append_assoc, List.cons.injEq,
            true_and, List.nil_append] at h
          obtain ⟨rfl, hrest⟩ := member_append_inj (ih m List.mem_cons_self)
            (hothers n List.mem_cons_self) (closes_members ms xs) (closes_members ns ys) h
          obtain ⟨rfl, htail⟩ := members_append_inj
            (fun p hp => ih p (List.mem_cons_of_mem m hp))
            (fun p hp => hothers p (List.mem_cons_of_mem m hp)) hrest
          exact ⟨rfl, htail⟩
      | keyword _ | union _ | array _ | record | any => cases hhead
  | record =>
      intro u xs ys hu _ _ h
      have hhead := head_eq .record hu h
      cases hu with
      | record => exact ⟨rfl, List.append_cancel_left h⟩
      | keyword _ | union _ | array _ | object _ _ | any => cases hhead
  | any =>
      intro u xs ys hu _ _ h
      have hhead := head_eq .any hu h
      cases hu with
      | any => exact ⟨rfl, List.append_cancel_left h⟩
      | keyword _ | union _ | array _ | object _ _ | record => cases hhead

/-- Types whose keys and literals are legible are told by their characters. -/
theorem TypeExpr.Legible.chars_inj {t u : TypeExpr} (ht : t.Legible) (hu : u.Legible)
    (h : t.chars = u.chars) : t = u := by
  have htokens : t.tokens = u.tokens :=
    spell_inj (separated_tokens ht) (separated_tokens hu) (by rw [spell_tokens, h, spell_tokens])
  have hnil : Closes [] := fun _ heq => nomatch heq
  exact (ht.readable hu hnil hnil (congrArg (· ++ []) htokens)).1

end TypeScript

end ApiTypes
