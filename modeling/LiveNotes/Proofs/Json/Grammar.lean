import LiveNotes.Json.Node

/-!
The grammar of JSON, apart from any reader: which characters write a tree. Blanks may stand around every
value and name; a string holds no control below the space and no quote or backslash of its own; the
halves of a surrogate pair stand next to each other.

* `Spells`: what the characters between two quotes say;
* `NumberWritten`: the characters of a number;
* `Writes`: the characters of a tree, and of what stands behind an opening bracket;
* `IsText`: a whole text.
-/

namespace LiveNotes.Json

/-! ### Blanks -/

/-- Blanks, as many as wanted. -/
def Blank (b : List Char) : Prop := ∀ c ∈ b, isSpace c = true

theorem blank_nil : Blank [] := nofun

theorem blank_append {b b' : List Char} (hb : Blank b) (hb' : Blank b') : Blank (b ++ b') := by
  intro c hc
  rcases List.mem_append.1 hc with hc | hc
  · exact hb c hc
  · exact hb' c hc

/-! ### Strings -/

/-- The text that characters between quotes stand for. -/
inductive Spells : (s w : List Char) → Prop where
  | nil : Spells [] []
  | plain {c : Char} {s w : List Char} (hc : 0x20 ≤ c.toNat) (hq : c ≠ '"') (hb : c ≠ '\\')
      (h : Spells s w) : Spells (c :: s) (c :: w)
  | short {e c : Char} {s w : List Char} (he : unescape? e = some c) (h : Spells s w) :
      Spells (c :: s) ('\\' :: e :: w)
  | code {a b c d : Char} {n : Nat} {s w : List Char} (hn : hexFour? a b c d = some n)
      (hhigh : isHighHalf n = false) (hlow : isLowHalf n = false) (h : Spells s w) :
      Spells (Char.ofNat n :: s) ('\\' :: 'u' :: a :: b :: c :: d :: w)
  | pair {a b c d a' b' c' d' : Char} {high low : Nat} {s w : List Char}
      (hn : hexFour? a b c d = some high) (hhigh : isHighHalf high = true)
      (hn' : hexFour? a' b' c' d' = some low) (hlow : isLowHalf low = true) (h : Spells s w) :
      Spells (joinHalves high low :: s)
        ('\\' :: 'u' :: a :: b :: c :: d :: '\\' :: 'u' :: a' :: b' :: c' :: d' :: w)

/-! ### Numbers -/

/-- Digits, at least one. -/
def Digits (w : List Char) : Prop := w ≠ [] ∧ ∀ c ∈ w, c.isDigit = true

/-- The digits behind a point, if there is one. -/
inductive FractionWritten : Option (List Char) → List Char → Prop where
  | absent : FractionWritten none []
  | present {ds : List Char} (h : Digits ds) : FractionWritten (some ds) ('.' :: ds)

/-- The digits behind a letter and a sign, if there are any. -/
inductive ExponentWritten : Option (Bool × List Char) → List Char → Prop where
  | absent : ExponentWritten none []
  | bare {e : Char} {ds : List Char} (he : e = 'e' ∨ e = 'E') (h : Digits ds) :
      ExponentWritten (some (false, ds)) (e :: ds)
  | plus {e : Char} {ds : List Char} (he : e = 'e' ∨ e = 'E') (h : Digits ds) :
      ExponentWritten (some (false, ds)) (e :: '+' :: ds)
  | minus {e : Char} {ds : List Char} (he : e = 'e' ∨ e = 'E') (h : Digits ds) :
      ExponentWritten (some (true, ds)) (e :: '-' :: ds)

/-- The characters of a number: of its digits before the point, a zero comes first only alone. -/
inductive NumberWritten : NumberText → List Char → Prop where
  | mk {negative : Bool} {whole f e : List Char} {fraction : Option (List Char)}
      {exponent : Option (Bool × List Char)} (hw : Digits whole)
      (hz : whole.head? = some '0' → whole = ['0']) (hf : FractionWritten fraction f)
      (he : ExponentWritten exponent e) :
      NumberWritten ⟨negative, whole, fraction, exponent⟩
        ((if negative then ['-'] else []) ++ (whole ++ (f ++ e)))

/-! ### Trees -/

/-- The name of a member, up to the colon behind it. -/
inductive NameWritten : String → List Char → Prop where
  | mk {s b w b' : List Char} (hb : Blank b) (h : Spells s w) (hb' : Blank b') :
      NameWritten (.ofList s) (b ++ '"' :: (w ++ '"' :: (b' ++ [':'])))

/-- A part of a text: a tree, or items or members up to the closing bracket. -/
inductive Part where
  | value (n : Node)
  | items (ns : List Node)
  | members (ms : List (String × Node))

/-- The characters of a part. -/
inductive Writes : Part → List Char → Prop where
  | nullWord : Writes (.value .null) ['n', 'u', 'l', 'l']
  | trueWord : Writes (.value (.boolean true)) ['t', 'r', 'u', 'e']
  | falseWord : Writes (.value (.boolean false)) ['f', 'a', 'l', 's', 'e']
  | number {n : NumberText} {w : List Char} (h : NumberWritten n w) : Writes (.value (.number n)) w
  | text {s w : List Char} (h : Spells s w) : Writes (.value (.text (.ofList s))) ('"' :: (w ++ ['"']))
  | emptyArray {b : List Char} (hb : Blank b) : Writes (.value (.array [])) ('[' :: (b ++ [']']))
  | array {ns : List Node} {w : List Char} (h : Writes (.items ns) w) :
      Writes (.value (.array ns)) ('[' :: w)
  | emptyObject {b : List Char} (hb : Blank b) :
      Writes (.value (.object [])) ('\x7b' :: (b ++ ['\x7d']))
  | object {ms : List (String × Node)} {w : List Char} (h : Writes (.members ms) w) :
      Writes (.value (.object ms)) ('\x7b' :: w)
  | lastItem {n : Node} {b w b' : List Char} (hb : Blank b) (h : Writes (.value n) w)
      (hb' : Blank b') : Writes (.items [n]) (b ++ (w ++ (b' ++ [']'])))
  | item {n : Node} {ns : List Node} {b w b' rest : List Char} (hb : Blank b)
      (h : Writes (.value n) w) (hb' : Blank b') (h' : Writes (.items ns) rest) :
      Writes (.items (n :: ns)) (b ++ (w ++ (b' ++ ',' :: rest)))
  | lastMember {name : String} {n : Node} {v b w b' : List Char} (hn : NameWritten name v)
      (hb : Blank b) (h : Writes (.value n) w) (hb' : Blank b') :
      Writes (.members [(name, n)]) (v ++ (b ++ (w ++ (b' ++ ['\x7d']))))
  | member {name : String} {n : Node} {ms : List (String × Node)} {v b w b' rest : List Char}
      (hn : NameWritten name v) (hb : Blank b) (h : Writes (.value n) w) (hb' : Blank b')
      (h' : Writes (.members ms) rest) :
      Writes (.members ((name, n) :: ms)) (v ++ (b ++ (w ++ (b' ++ ',' :: rest))))

/-- A whole text: a tree with blanks around it. -/
def IsText (n : Node) (text : String) : Prop :=
  ∃ b w b', Blank b ∧ Writes (.value n) w ∧ Blank b' ∧ text.toList = b ++ (w ++ b')

theorem isText_of_writes {n : Node} {text : String} (h : Writes (.value n) text.toList) : IsText n text :=
  ⟨[], _, [], blank_nil, h, blank_nil, by rw [List.append_nil, List.nil_append]⟩

end LiveNotes.Json
