import Mathlib.Tactic.Tauto
import ApiTypes.Json.Reader
import ApiTypes.Yaml.Token.Scanner

/-! # Tokens of a text that begins with a bracket

Cut into tokens, a text that begins with an opening bracket begins with that of a flow sequence.  At
most the tokens of a block mapping are put before it, once the sequence turns out to be a key.  Each
step of the scanner leaves them in front (`Scanner.Opened.next`), and the first step puts them there
(`exists_opening`).

Main definitions: `Opening`, `Scanner.Opened`, `BeforeBracket`. -/

namespace ApiTypes.Yaml

/-! ### Tokens put before others -/

/-- The tokens up to the bracket that a text begins with. -/
inductive Opening : List Token → Prop
  | bracket : Opening [.flowSequenceStart]
  | key : Opening [.key, .flowSequenceStart]
  | mapping : Opening [.blockMappingStart, .key, .flowSequenceStart]

/-- Every token that may be a simple key stands behind the opening; only in the block the bracket
itself may be one. -/
def KeysBehind (opening : List Token) : List (Option SimpleKey) → Prop
  | [] => True
  | [slot] => ∀ k ∈ slot, opening.length ≤ k.position ∨
      k.position = 0 ∧ opening = [.flowSequenceStart]
  | slot :: rest => (∀ k ∈ slot, opening.length ≤ k.position) ∧ KeysBehind opening rest

namespace KeysBehind
variable {opening : List Token} {slot : Option SimpleKey} {keys : List (Option SimpleKey)}

theorem tail (h : KeysBehind opening (slot :: keys)) : KeysBehind opening keys := by
  cases keys with
  | nil => trivial
  | cons _ _ => exact h.2

theorem cons (h : KeysBehind opening keys) (hslot : ∀ k ∈ slot, opening.length ≤ k.position) :
    KeysBehind opening (slot :: keys) := by
  cases keys with
  | nil => exact fun k hk => Or.inl (hslot k hk)
  | cons _ _ => exact ⟨hslot, h⟩

theorem none_cons (h : KeysBehind opening keys) : KeysBehind opening (none :: keys) :=
  h.cons fun _ hk => nomatch hk

theorem drop_one (h : KeysBehind opening keys) : KeysBehind opening (keys.drop 1) := by
  cases keys with
  | nil => exact h
  | cons _ _ => exact h.tail

end KeysBehind

namespace Scanner

/-- The tokens read, in order. -/
def tokens (s : Scanner) : List Token := s.read.reverse

/-- The tokens read begin with the opening, and none that may be put before others comes inside. -/
structure OpenedBy (opening : List Token) (s : Scanner) : Prop where
  count : s.count = s.read.length
  tokens : opening <+: s.tokens
  keys : KeysBehind opening s.keys

/-- The tokens read begin with an opening. -/
def Opened (s : Scanner) : Prop := ∃ opening, Opening opening ∧ s.OpenedBy opening

theorem tokens_insertAt {s : Scanner} (h : s.count = s.read.length) (position : Nat) (t : Token) :
    (s.insertAt position t).tokens = s.tokens.take position ++ t :: s.tokens.drop position := by
  unfold insertAt tokens
  dsimp only
  rw [h, List.take_reverse, List.drop_reverse]
  simp

theorem length_insertAt {s : Scanner} (h : s.count = s.read.length) (position : Nat) (t : Token) :
    (s.insertAt position t).count = (s.insertAt position t).read.length := by
  unfold insertAt
  dsimp only
  rw [List.length_append, List.length_cons, List.length_take, List.length_drop]
  omega

namespace OpenedBy
variable {opening : List Token} {s s' : Scanner} (h : s.OpenedBy opening)
include h

theorem length_le : opening.length ≤ s.count := by
  have := h.tokens.length_le
  rwa [Scanner.tokens, List.length_reverse, ← h.count] at this

theorem emit (t : Token) : (s.emit t).OpenedBy opening where
  count := congrArg (· + 1) h.count
  tokens := by
    unfold Scanner.emit Scanner.tokens
    rw [List.reverse_cons]
    exact h.tokens.trans (List.prefix_append _ _)
  keys := h.keys

/-- A token that comes behind the opening leaves it in front. -/
theorem insertAt {position : Nat} (hposition : opening.length ≤ position) (t : Token) :
    (s.insertAt position t).OpenedBy opening where
  count := length_insertAt h.count position t
  tokens := by
    rw [tokens_insertAt h.count]
    refine List.IsPrefix.trans ?_ (List.prefix_append _ _)
    exact List.prefix_take_iff.mpr ⟨h.tokens, hposition⟩
  keys := h.keys

theorem openBlock {position : Nat} (hposition : opening.length ≤ position) (column : Nat)
    (t : Token) : (s.openBlock column position t).OpenedBy opening := by
  unfold Scanner.openBlock
  split
  · have hinserted := h.insertAt hposition t
    exact ⟨hinserted.count, hinserted.tokens, hinserted.keys⟩
  · exact h

theorem closeEach (columns : List Nat) : (s.closeEach columns).OpenedBy opening := by
  induction columns generalizing s with
  | nil => exact h
  | cons column rest ih =>
      have hemitted := h.emit .blockEnd
      exact ih ⟨hemitted.count, hemitted.tokens, hemitted.keys⟩

theorem closeBlocks (column : Int) : (s.closeBlocks column).OpenedBy opening := by
  unfold Scanner.closeBlocks
  split
  · exact h
  · exact h.closeEach _

theorem dropKey (hs : s.dropKey = some s') : s'.OpenedBy opening := by
  unfold Scanner.dropKey at hs
  split at hs
  · next k rest hkeys =>
    split at hs
    · cases hs
    · obtain rfl := Option.some.inj hs
      have hbehind := h.keys
      rw [hkeys] at hbehind
      exact ⟨h.count, h.tokens, hbehind.tail.none_cons⟩
  · obtain rfl := Option.some.inj hs
    exact h

theorem dropStaleKey (hs : s.dropStaleKey = some s') : s'.OpenedBy opening := by
  unfold Scanner.dropStaleKey at hs
  split at hs
  · split at hs
    · exact h.dropKey hs
    · obtain rfl := Option.some.inj hs
      exact h
  · obtain rfl := Option.some.inj hs
    exact h

theorem noteKey (hs : s.noteKey = some s') : s'.OpenedBy opening := by
  unfold Scanner.noteKey at hs
  split at hs
  · obtain ⟨s₁, hdrop, hs⟩ := Option.bind_eq_some_iff.mp hs
    obtain rfl := Option.some.inj hs
    have h₁ := h.dropKey hdrop
    refine ⟨h₁.count, h₁.tokens, h₁.keys.drop_one.cons ?_⟩
    rintro k ⟨⟩
    exact h₁.length_le
  · obtain rfl := Option.some.inj hs
    exact h

/-! ### Tokens -/

theorem skipToToken (fuel : Nat) : (s.skipToToken fuel).OpenedBy opening := by
  induction fuel generalizing s with
  | zero => exact h
  | succ fuel ih =>
      rw [Scanner.skipToToken]
      split
      · split
        · exact ih ⟨h.count, h.tokens, h.keys⟩
        · exact ⟨h.count, h.tokens, h.keys⟩
      · exact ⟨h.count, h.tokens, h.keys⟩

theorem startOfDocument (hs : s.startOfDocument = some s') : s'.OpenedBy opening := by
  obtain ⟨s₁, hdrop, rfl⟩ := Option.map_eq_some_iff.mp hs
  have h₁ := (h.closeBlocks (-1)).dropKey hdrop
  exact ⟨h₁.count, h₁.tokens, h₁.keys⟩

theorem openFlow {t : Token} (hs : s.openFlow t = some s') : s'.OpenedBy opening := by
  obtain ⟨s₁, hnote, hs⟩ := Option.bind_eq_some_iff.mp hs
  obtain rfl := Option.some.inj hs
  have h₁ := (h.noteKey hnote).emit t
  exact ⟨h₁.count, h₁.tokens, h₁.keys.none_cons⟩

theorem closeFlow {t : Token} (hs : s.closeFlow t = some s') : s'.OpenedBy opening := by
  obtain ⟨s₁, hdrop, hs⟩ := Option.bind_eq_some_iff.mp hs
  obtain rfl := Option.some.inj hs
  have h₁ := (h.dropKey hdrop).emit t
  refine ⟨h₁.count, h₁.tokens, ?_⟩
  dsimp only
  split
  · exact h₁.keys.drop_one
  · exact h₁.keys

theorem flowEntry (hs : s.flowEntry = some s') : s'.OpenedBy opening := by
  obtain ⟨s₁, hdrop, hs⟩ := Option.bind_eq_some_iff.mp hs
  obtain rfl := Option.some.inj hs
  have h₁ := (h.dropKey hdrop).emit .flowEntry
  exact ⟨h₁.count, h₁.tokens, h₁.keys⟩

theorem blockEntry (hs : s.blockEntry = some s') : s'.OpenedBy opening := by
  unfold Scanner.blockEntry at hs
  split at hs
  · cases hs
  · obtain ⟨s₁, hdrop, hs⟩ := Option.bind_eq_some_iff.mp hs
    obtain rfl := Option.some.inj hs
    have h₁ := ((h.openBlock h.length_le _ _).dropKey hdrop).emit .blockEntry
    exact ⟨h₁.count, h₁.tokens, h₁.keys⟩

theorem explicitKey (hs : s.explicitKey = some s') : s'.OpenedBy opening := by
  unfold Scanner.explicitKey at hs
  split at hs
  · cases hs
  · obtain ⟨s₁, hdrop, hs⟩ := Option.bind_eq_some_iff.mp hs
    obtain rfl := Option.some.inj hs
    have h₁ := ((h.openBlock h.length_le _ _).dropKey hdrop).emit .key
    exact ⟨h₁.count, h₁.tokens, h₁.keys⟩

theorem keyLike {read : Cursor → Option (Token × Cursor)} (hs : s.keyLike read = some s') :
    s'.OpenedBy opening := by
  obtain ⟨s₁, hnote, hs⟩ := Option.bind_eq_some_iff.mp hs
  obtain ⟨⟨t, c⟩, _, hs⟩ := Option.bind_eq_some_iff.mp hs
  obtain rfl := Option.some.inj hs
  have h₁ := (h.noteKey hnote).emit t
  exact ⟨h₁.count, h₁.tokens, h₁.keys⟩

theorem blockScalar {folded : Bool} (hs : s.blockScalar folded = some s') :
    s'.OpenedBy opening := by
  obtain ⟨s₁, hdrop, hs⟩ := Option.bind_eq_some_iff.mp hs
  obtain ⟨⟨text, c⟩, _, hs⟩ := Option.bind_eq_some_iff.mp hs
  obtain rfl := Option.some.inj hs
  have h₁ := (h.dropKey hdrop).emit
    (.scalar (String.ofList text) (if folded then ScalarStyle.folded else .literal))
  exact ⟨h₁.count, h₁.tokens, h₁.keys⟩

theorem plainScalar (hs : s.plainScalar = some s') : s'.OpenedBy opening := by
  obtain ⟨s₁, hnote, hs⟩ := Option.bind_eq_some_iff.mp hs
  obtain ⟨⟨text, broken, c⟩, _, hs⟩ := Option.bind_eq_some_iff.mp hs
  obtain rfl := Option.some.inj hs
  have h₁ := (h.noteKey hnote).emit (.scalar (String.ofList text) .plain)
  exact ⟨h₁.count, h₁.tokens, h₁.keys⟩

end OpenedBy

/-- The bracket becomes a key itself: what is put before it becomes part of the opening. -/
theorem OpenedBy.bracketKey {s : Scanner} (h : s.OpenedBy [.flowSequenceStart]) (column : Nat) :
    ∃ opening, Opening opening ∧ OpenedBy opening
      { (s.insertAt 0 .key).openBlock column 0 .blockMappingStart with keys := [none] } := by
  have hcount := length_insertAt h.count 0 .key
  have htokens : [.key, .flowSequenceStart] <+: (s.insertAt 0 .key).tokens := by
    rw [tokens_insertAt h.count]
    exact (List.prefix_cons_inj _).mpr h.tokens
  unfold Scanner.openBlock
  split
  · refine ⟨_, .mapping, length_insertAt hcount 0 _, ?_, fun _ hk => nomatch hk⟩
    change _ <+: ((s.insertAt 0 .key).insertAt 0 .blockMappingStart).tokens
    rw [tokens_insertAt hcount]
    exact (List.prefix_cons_inj _).mpr htokens
  · exact ⟨_, .key, hcount, htokens, fun _ hk => nomatch hk⟩

namespace Opened
variable {s s' : Scanner} (h : s.Opened)
include h

/-- A colon makes a key of the token before it; of the bracket itself, where that is the one. -/
theorem keyValue (hs : s.keyValue = some s') : s'.Opened := by
  obtain ⟨opening, hopening, h⟩ := h
  unfold Scanner.keyValue at hs
  split at hs
  · next k rest hkeys =>
    obtain rfl := Option.some.inj hs
    have hbehind := h.keys
    rw [hkeys] at hbehind
    by_cases hposition : opening.length ≤ k.position
    · have h₁ := ((h.insertAt hposition .key).openBlock hposition k.column
        .blockMappingStart).emit .value
      exact ⟨opening, hopening, h₁.count, h₁.tokens, hbehind.tail.none_cons⟩
    · have hbracket : k.position = 0 ∧ opening = [.flowSequenceStart] ∧ rest = [] := by
        cases rest with
        | nil =>
            obtain ⟨hzero, hopened⟩ := (hbehind k rfl).resolve_left hposition
            exact ⟨hzero, hopened, rfl⟩
        | cons _ _ => exact absurd (hbehind.1 k rfl) hposition
      obtain ⟨hzero, rfl, rfl⟩ := hbracket
      rw [hzero]
      obtain ⟨opening, hopening, h₁⟩ := h.bracketKey k.column
      have h₂ := h₁.emit .value
      exact ⟨opening, hopening, h₂.count, h₂.tokens, fun _ hk => nomatch hk⟩
  · split at hs
    · cases hs
    · obtain rfl := Option.some.inj hs
      have h₁ := (h.openBlock h.length_le s.cursor.column .blockMappingStart).emit .value
      exact ⟨opening, hopening, h₁.count, h₁.tokens, h₁.keys⟩

/-- Whatever character a token starts with, it comes behind the opening or adds to it. -/
theorem token {ch : Char} {rest : List Char} (hs : s.token ch rest = some s') : s'.Opened := by
  have ⟨opening, hopening, hby⟩ := h
  have hbehind (h : s'.OpenedBy opening) : s'.Opened := ⟨opening, hopening, h⟩
  unfold Scanner.token at hs
  obtain ⟨_, hs⟩ | ⟨_, hs⟩ := ite_eq_iff.mp hs
  · obtain ⟨s₁, hstart, hs⟩ := Option.bind_eq_some_iff.mp hs
    obtain ⟨⟨t, c⟩, _, hs⟩ := Option.bind_eq_some_iff.mp hs
    obtain rfl := Option.some.inj hs
    have h₁ := (hby.startOfDocument hstart).emit t
    exact hbehind ⟨h₁.count, h₁.tokens, h₁.keys⟩
  obtain ⟨_, hs⟩ | ⟨_, hs⟩ := ite_eq_iff.mp hs
  · obtain ⟨s₁, hstart, rfl⟩ := Option.map_eq_some_iff.mp hs
    have h₁ := (hby.startOfDocument hstart).emit
      (if ch == '-' then .documentStart else .documentEnd)
    exact hbehind ⟨h₁.count, h₁.tokens, h₁.keys⟩
  obtain ⟨_, hs⟩ | ⟨_, hs⟩ := ite_eq_iff.mp hs
  · exact hbehind (hby.openFlow hs)
  obtain ⟨_, hs⟩ | ⟨_, hs⟩ := ite_eq_iff.mp hs
  · exact hbehind (hby.openFlow hs)
  obtain ⟨_, hs⟩ | ⟨_, hs⟩ := ite_eq_iff.mp hs
  · exact hbehind (hby.closeFlow hs)
  obtain ⟨_, hs⟩ | ⟨_, hs⟩ := ite_eq_iff.mp hs
  · exact hbehind (hby.closeFlow hs)
  obtain ⟨_, hs⟩ | ⟨_, hs⟩ := ite_eq_iff.mp hs
  · exact hbehind (hby.flowEntry hs)
  obtain ⟨_, hs⟩ | ⟨_, hs⟩ := ite_eq_iff.mp hs
  · exact hbehind (hby.blockEntry hs)
  obtain ⟨_, hs⟩ | ⟨_, hs⟩ := ite_eq_iff.mp hs
  · exact hbehind (hby.explicitKey hs)
  obtain ⟨_, hs⟩ | ⟨_, hs⟩ := ite_eq_iff.mp hs
  · exact h.keyValue hs
  obtain ⟨_, hs⟩ | ⟨_, hs⟩ := ite_eq_iff.mp hs
  · exact hbehind (hby.keyLike hs)
  obtain ⟨_, hs⟩ | ⟨_, hs⟩ := ite_eq_iff.mp hs
  · exact hbehind (hby.keyLike hs)
  obtain ⟨_, hs⟩ | ⟨_, hs⟩ := ite_eq_iff.mp hs
  · exact hbehind (hby.keyLike hs)
  obtain ⟨_, hs⟩ | ⟨_, hs⟩ := ite_eq_iff.mp hs
  · exact hbehind (hby.blockScalar hs)
  obtain ⟨_, hs⟩ | ⟨_, hs⟩ := ite_eq_iff.mp hs
  · exact hbehind (hby.blockScalar hs)
  obtain ⟨_, hs⟩ | ⟨_, hs⟩ := ite_eq_iff.mp hs
  · exact hbehind (hby.keyLike hs)
  obtain ⟨_, hs⟩ | ⟨_, hs⟩ := ite_eq_iff.mp hs
  · exact hbehind (hby.keyLike hs)
  obtain ⟨_, hs⟩ | ⟨_, hs⟩ := ite_eq_iff.mp hs
  · exact hbehind (hby.plainScalar hs)
  · cases hs

theorem next {ch : Char} {rest : List Char} (hs : s.next ch rest = some s') : s'.Opened := by
  obtain ⟨s₁, hdrop, hs⟩ := Option.bind_eq_some_iff.mp hs
  obtain ⟨opening, hopening, h⟩ := h
  exact token ⟨opening, hopening, (h.dropStaleKey hdrop).closeBlocks _⟩ hs

theorem finish (hs : s.finish = some s') : s'.Opened := by
  obtain ⟨s₁, hdrop, hs⟩ := Option.bind_eq_some_iff.mp hs
  obtain ⟨opening, hopening, h⟩ := h
  exact ⟨opening, hopening, ((h.dropStaleKey hdrop).closeBlocks (-1)).dropKey hs⟩

theorem run {fuel : Nat} (hs : s.run fuel = some s') : s'.Opened := by
  induction fuel generalizing s with
  | zero => cases hs
  | succ fuel ih =>
      obtain ⟨opening, hopening, h⟩ := h
      have hskipped := h.skipToToken (s.cursor.left + 1)
      rw [Scanner.run] at hs
      split at hs
      · exact finish ⟨opening, hopening, hskipped⟩ hs
      · obtain ⟨s₁, hnext, hs⟩ := Option.bind_eq_some_iff.mp hs
        exact ih (next ⟨opening, hopening, hskipped⟩ hnext) hs

end Opened

end Scanner

/-! ### Up to the bracket -/

/-- A bracket stands first, after white space of JSON. -/
inductive BeforeBracket : List Char → Prop
  | here (rest : List Char) : BeforeBracket ('[' :: rest)
  | space {c : Char} {rest : List Char} (hc : Json.isSpace c = true) (h : BeforeBracket rest) :
      BeforeBracket (c :: rest)

theorem beforeBracket_of_skipSpace {s tail : List Char} (h : Json.skipSpace s = '[' :: tail) :
    BeforeBracket s := by
  induction s with
  | nil => cases h
  | cons c rest ih =>
      unfold Json.skipSpace at h
      by_cases hc : Json.isSpace c = true
      · rw [List.dropWhile_cons_of_pos hc] at h
        exact .space hc (ih h)
      · rw [List.dropWhile_cons_of_neg hc] at h
        obtain ⟨rfl, rfl⟩ := List.cons.inj h
        exact .here _

namespace BeforeBracket

theorem head_cases {c : Char} {rest : List Char} (h : BeforeBracket (c :: rest)) :
    c = ' ' ∨ c = '\t' ∨ c = '\n' ∨ c = '\r' ∨ c = '[' := by
  cases h with
  | here => simp
  | space hc _ =>
      simp only [Json.isSpace, Bool.or_eq_true, beq_iff_eq] at hc
      tauto

theorem tail {c : Char} {rest : List Char} (h : BeforeBracket (c :: rest)) (hc : c ≠ '[') :
    BeforeBracket rest := by
  cases h with
  | here => exact absurd rfl hc
  | space _ h => exact h

theorem dropWhile {s : List Char} (h : BeforeBracket s) {p : Char → Bool} (hp : p '[' = false) :
    BeforeBracket (s.dropWhile p) := by
  induction h with
  | here rest =>
      rw [List.dropWhile_cons_of_neg (by simp [hp])]
      exact .here rest
  | @space c rest hc h ih =>
      by_cases hpc : p c = true
      · rw [List.dropWhile_cons_of_pos hpc]
        exact ih
      · rw [List.dropWhile_cons_of_neg hpc]
        exact .space hc h

end BeforeBracket

namespace Cursor
variable {c : Cursor} (h : BeforeBracket c.rest)

theorem rest_skipWhile (c : Cursor) (p : Char → Bool) :
    (c.skipWhile p).rest = c.rest.dropWhile p :=
  calc c.rest.drop (c.rest.takeWhile p).length
      = (c.rest.takeWhile p ++ c.rest.dropWhile p).drop (c.rest.takeWhile p).length := by
        rw [List.takeWhile_append_dropWhile]
    _ = c.rest.dropWhile p := List.drop_left

include h

theorem skipByteOrderMark_eq : c.skipByteOrderMark = c := by
  unfold skipByteOrderMark
  split
  · next hmark =>
    exfalso
    obtain ⟨rest, hrest⟩ : ∃ rest, c.rest = '\ufeff' :: rest := by
      cases hc : c.rest <;> simp_all
    rw [hrest] at h
    simpa using h.head_cases
  · rfl

theorem skipComment_eq : c.skipComment = c := by
  unfold skipComment
  split
  · next rest hrest =>
    rw [hrest] at h
    simpa using h.head_cases
  · rfl

/-- A line break is passed without the bracket being met. -/
theorem beforeBracket_takeBreak {ch : Char} {rest : List Char} (hc : c.rest = ch :: rest)
    (hbreak : isBreak ch = true) : BeforeBracket c.takeBreak.2.rest := by
  unfold takeBreak
  split
  · next rest' hrest =>
    rw [hrest] at h
    exact (h.tail (by decide)).tail (by decide)
  · next b rest' _ hrest =>
    obtain ⟨rfl, rfl⟩ := List.cons.inj (hc.symm.trans hrest)
    rw [hc] at h
    exact h.tail (by rintro rfl; cases hbreak)
  · exact h

end Cursor

namespace Scanner

/-- Nothing is read yet, and a bracket stands first. -/
structure AtBracket (s : Scanner) : Prop where
  read : s.read = []
  count : s.count = 0
  columns : s.columns = []
  keys : s.keys = [none]
  keyAllowed : s.keyAllowed = true
  rest : BeforeBracket s.cursor.rest

theorem atBracket_start {s : List Char} (h : BeforeBracket s) :
    AtBracket { cursor := .start s } :=
  ⟨rfl, rfl, rfl, rfl, rfl, h⟩

namespace AtBracket
variable {s s' : Scanner} (h : s.AtBracket)
include h

theorem skipToToken (fuel : Nat) : (s.skipToToken fuel).AtBracket := by
  induction fuel generalizing s with
  | zero => exact h
  | succ fuel ih =>
      rw [Scanner.skipToToken, Cursor.skipByteOrderMark_eq h.rest]
      generalize hp : (fun ch => ch == ' ' || (s.inFlow || !s.keyAllowed) && ch == '\t') = p
      have hskipped : BeforeBracket (s.cursor.skipWhile p).rest := by
        rw [Cursor.rest_skipWhile]
        exact h.rest.dropWhile (by simp [← hp])
      rw [Cursor.skipComment_eq hskipped]
      split
      · next ch rest hrest =>
        split
        · next hbreak =>
          refine ih ⟨h.read, h.count, h.columns, h.keys, ?_, ?_⟩
          · simp [h.keyAllowed]
          · exact Cursor.beforeBracket_takeBreak hskipped hrest hbreak
        · exact ⟨h.read, h.count, h.columns, h.keys, h.keyAllowed, hskipped⟩
      · exact ⟨h.read, h.count, h.columns, h.keys, h.keyAllowed, hskipped⟩

theorem opened_of_openFlow (hs : s.openFlow .flowSequenceStart = some s') : s'.Opened := by
  unfold openFlow noteKey dropKey at hs
  simp only [h.keyAllowed, h.keys, if_true, Option.bind_eq_bind, Option.bind_some] at hs
  obtain rfl := Option.some.inj hs
  refine ⟨_, .bracket, ?_, ?_, KeysBehind.none_cons ?_⟩
  · simp [emitMark, Scanner.emit, h.count, h.read]
  · simp [emitMark, Scanner.emit, tokens, h.read]
  · rintro k ⟨⟩
    exact Or.inr ⟨h.count, rfl⟩

/-- No token starts with white space, and the bracket is one that may become a key. -/
theorem opened_of_token {ch : Char} {rest : List Char} (hrest : s.cursor.rest = ch :: rest)
    (hs : s.token ch rest = some s') : s'.Opened := by
  have hbracket := h.rest
  rw [hrest] at hbracket
  have hmarker : s.cursor.atMarker = false := by
    unfold Cursor.atMarker
    rw [hrest]
    rcases hbracket.head_cases with rfl | rfl | rfl | rfl | rfl <;> simp
  unfold token at hs
  rcases hbracket.head_cases with rfl | rfl | rfl | rfl | rfl
  all_goals simp [hmarker, startsPlain, isGap, isBlank, isBreak] at hs
  exact h.opened_of_openFlow hs

theorem opened_of_next {ch : Char} {rest : List Char} (hrest : s.cursor.rest = ch :: rest)
    (hs : s.next ch rest = some s') : s'.Opened := by
  have hdrop : s.dropStaleKey = some s := by
    rw [dropStaleKey, h.keys]
  have hclose : s.closeBlocks s.cursor.column = s := by
    rw [closeBlocks, h.columns]
    simp [closeEach]
  unfold next at hs
  rw [hdrop, Option.bind_eq_bind, Option.bind_some, hclose] at hs
  exact h.opened_of_token hrest hs

theorem opened_of_run {fuel : Nat} (hs : s.run fuel = some s') : s'.Opened := by
  cases fuel with
  | zero => cases hs
  | succ fuel =>
      have hskipped := h.skipToToken (s.cursor.left + 1)
      rw [Scanner.run] at hs
      split at hs
      · next hrest =>
        have hbracket := hskipped.rest
        rw [hrest] at hbracket
        cases hbracket
      · next ch rest hrest =>
        obtain ⟨s₁, hnext, hs⟩ := Option.bind_eq_some_iff.mp hs
        exact (hskipped.opened_of_next hrest hnext).run hs

end AtBracket

end Scanner

/-- A text that begins with a bracket is cut into tokens that begin with an opening. -/
theorem exists_opening {s : List Char} {ts : List Token} (h : BeforeBracket s)
    (hts : Token.ofText? s = some ts) : ∃ opening, Opening opening ∧ opening <+: ts := by
  unfold Token.ofText? at hts
  split at hts
  · obtain ⟨scanner, hrun, rfl⟩ := Option.map_eq_some_iff.mp hts
    obtain ⟨opening, hopening, hby⟩ := (Scanner.atBracket_start h).opened_of_run hrun
    exact ⟨opening, hopening, hby.tokens⟩
  · cases hts

end ApiTypes.Yaml
