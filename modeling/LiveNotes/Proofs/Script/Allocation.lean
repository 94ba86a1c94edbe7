import LiveNotes.Proofs.Script.Costs
import LiveNotes.Proofs.Script.Metering
import LiveNotes.Proofs.Script.ParserComplete
import LiveNotes.Proofs.Script.Spelling

/-!
How large a value a function can build within its limit. The size of a result is paid for by the steps
of the call, each taken as the size of the source text and of the arguments and a thousand more, as
long as the function is metered.

* `size_le_of_metered`: the bound for metered functions;
* `size_product`: `replaceAll` builds a text as large as the product of two others in five steps.
-/

namespace LiveNotes.Script

open Number Text Value

/-- The size of a result of a metered function: it is at most that of the source text, of the arguments
and a thousand more, taken once and for each step of the limit. -/
theorem size_le_of_metered {code : String} {f : Lambda} {args : List Value} {limit : Nat} {v : Value}
    (hcode : compile code = .ok f) (hf : f.body.metered = true) (hl : limit < stepCap)
    (hv : invoke limit f args = .ok v) :
    size v ≤ (limit + 1) * (code.utf8ByteSize + itemsSize args + 1000) := by
  have htext := compile_textBytes hcode
  generalize hunit : code.utf8ByteSize + itemsSize args + 1000 = unit
  have hbody := perform_pays hl f.body hf (show f.body.textBytes + 1000 ≤ unit by omega)
  have hcall := @pays_callBody _ _ hl f.params _ _ hbody (by omega) args
  unfold invoke outcome at hv
  split at hv
  · split at hv
    · next v' m hm =>
      cases hv
      obtain ⟨d, hd, hlimit, hworth⟩ := hcall _ _ _ (Nat.zero_le _) hm
      have hsize := size_le_worth unit v
      have hpaid : unit * d ≤ unit * limit := Nat.mul_le_mul_left _ (by
        change m.steps = 0 + d at hd
        omega)
      have : longestText = 655 := rfl
      unfold excess at hworth
      rw [Nat.succ_mul, Nat.mul_comm limit]
      omega
    · cases hv
  · cases hv

theorem compile_identity : compile (.ofList (spaced [Word.a, .symbol .arrow, Word.a])) =
    .ok ⟨["a"], .expr (.identifier "a")⟩ := by
  obtain ⟨ts, hts, hkinds⟩ := tokenize_words [Word.a, .symbol .arrow, Word.a]
  have body : Reads .expression [.identifier "a", .eof] (.identifier "a") [.eof] 1 := reads_name rfl
  have hreads := Reads.arrowExpr (.inl ⟨"a", rfl, rfl⟩) (by nofun) body
  have := parseExpression_of_reads hts (by rw [hkinds]; exact hreads) rfl (by decide)
  rw [compile, parseFunction_of_expression this]

/-- The bound for a function that gives back its argument. -/
theorem size_le_identity : ∃ code f v, compile code = .ok f ∧ f.body.metered = true ∧
    10 < stepCap ∧ invoke 10 f [.array [.null, .string "ab"]] = .ok v ∧ size v = 4 ∧
    size v ≤ (10 + 1) * (code.utf8ByteSize + itemsSize [.array [.null, .string "ab"]] + 1000) := by
  have hv : invoke 10 ⟨["a"], .expr (.identifier "a")⟩ [.array [.null, .string "ab"]] =
      .ok (.array [.null, .string "ab"]) := by rfl
  exact ⟨_, _, _, compile_identity, rfl, by decide, hv, by rfl,
    size_le_of_metered compile_identity rfl (by decide) hv⟩

/-! ### A text as large as a product -/

/-- The name `replaceAll` as a word. -/
def Word.replaceAll : Word where
  spelling := "replaceAll".toList
  token := .identifier "replaceAll"
  spells := by
    refine ⟨_, _, rfl, ?_⟩
    rintro _ (rfl | ⟨rest, rfl⟩)
    · exact ⟨rfl, fun _ => rfl⟩
    · exact ⟨rfl, fun _ => rfl⟩

theorem bytes_spaced (words : List Word) :
    bytes (spaced words) = (words.map fun w => bytes w.spelling + 1).sum := by
  induction words with
  | nil => rfl
  | cons w words ih =>
    have blank : ' '.utf8Size = 1 := rfl
    rw [List.map_cons, List.sum_cons, ← ih, spaced, List.flatMap_cons, List.cons_append, bytes_cons,
      bytes_append, blank, ← spaced]
    omega

theorem bytes_quotedChars (s : List Char) : bytes (quotedChars s) = bytes s + 2 := by
  have quote : '\''.utf8Size = 1 := rfl
  rw [quotedChars, bytes_cons, bytes_append, bytes_cons, bytes_nil, quote]
  omega

/-- A row of one letter. -/
def letters (n : Nat) : List Char := List.replicate n 'a'

theorem letters_plain (n : Nat) : ∀ c ∈ letters n, c ≠ '\'' ∧ c ≠ '\\' := by
  intro c hc
  rw [List.eq_of_mem_replicate hc]
  decide

theorem bytes_letters (n : Nat) : bytes (letters n) = n := by
  rw [bytes, letters, List.map_replicate, List.sum_replicate_nat]
  exact Nat.mul_one n

/-- The words of a function that puts a row of letters between all letters of such a row. -/
def productWords (n : Nat) : List Word :=
  [.symbol .lParen, .symbol .rParen, .symbol .arrow, .string (letters n) (letters_plain n), .symbol .dot,
    .replaceAll, .symbol .lParen, .string [] nofun, .symbol .comma, .string (letters n) (letters_plain n),
    .symbol .rParen]

/-- The text of these words. -/
def productText (n : Nat) : String := .ofList (spaced (productWords n))

theorem utf8ByteSize_productText (n : Nat) : (productText n).utf8ByteSize = 2 * n + 35 := by
  rw [productText, utf8ByteSize_ofList, bytes_spaced]
  change 2 + (2 + (3 + (bytes (quotedChars (letters n)) + 1 + (2 + (11 + (2 + (3 + (2 +
    (bytes (quotedChars (letters n)) + 1 + 2))))))))) = _
  rw [bytes_quotedChars, bytes_letters]
  omega

/-- The call that these words spell. -/
def productCall (row : String) : Expr :=
  .methodCall (.string row) "replaceAll" [.string (.ofList []), .string row]

theorem compile_productText (n : Nat) :
    compile (productText n) = .ok ⟨[], .expr (productCall (.ofList (letters n)))⟩ := by
  obtain ⟨ts, hts, hkinds⟩ := tokenize_words (productWords n)
  generalize hrow : String.ofList (letters n) = row
  have last : Reads (.elements .rParen) [.string row, .symbol .rParen, .eof] [.string row] [.eof] 1 :=
    .lastElement nofun nofun (reads_string rfl)
  have args : Reads (.elements .rParen)
      [.string (.ofList []), .symbol .comma, .string row, .symbol .rParen, .eof]
      [.string (.ofList []), .string row] [.eof] 1 :=
    .element (by nofun) (reads_string rfl) last
  have call : Reads (.links (.string row))
      (.symbol .dot :: .identifier "replaceAll" :: .symbol .lParen :: _) (productCall row) [.eof] 2 :=
    .methodCall args (.linksEnd (not_links_of_closes rfl))
  have body : Reads .expression (.string row :: _) (productCall row) [.eof] 3 :=
    (Reads.noOperator rfl (.operand (.literal rfl) call)).toExpression nofun
      (fun _ _ => not_arrowHead nofun nofun) rfl
  have hreads := Reads.arrowExpr (arrowHead_paramTokens [] _) (by nofun) body
  rw [← hrow] at hreads
  have := parseExpression_of_reads hts (by rw [hkinds]; exact hreads) rfl (by decide)
  rw [compile, productText, parseFunction_of_expression this, hrow]

theorem bytes_flatMap_letters (new : List Char) (n : Nat) :
    bytes ((letters n).flatMap fun c => c :: new) = n * (1 + bytes new) := by
  induction n with
  | zero => simp [letters]
  | succ n ih =>
    have letter : 'a'.utf8Size = 1 := rfl
    rw [letters, List.replicate_succ, List.flatMap_cons, bytes_append, bytes_cons, letter, ← letters, ih,
      Nat.succ_mul, Nat.add_comm]

/-- The bytes of a row of letters put between all letters of such a row. -/
theorem bytes_replaceAll_letters (n : Nat) :
    bytes (Text.replaceAll [] (letters n) (letters n)) = n * n + 2 * n := by
  rw [Text.replaceAll, dif_neg (by simp), bytes_append, bytes_flatMap_letters, bytes_letters, Nat.mul_add]
  omega

/-- What the function gives in five steps has the square of the number of letters in it. -/
theorem size_product (n : Nat) : ∃ f v, compile (productText n) = .ok f ∧ invoke 5 f [] = .ok v ∧
    size v = n * n + 2 * n := by
  have hl : 5 ≤ stepCap := by decide
  have hargs (s t : List Char) : TextMethod.run 5 (.ofList s) [.string (.ofList []), .string (.ofList t)]
      .replaceAll = pure (textValue (Text.replaceAll [] t s)) := by
    simp [TextMethod.run, argText, Value.toText]
  refine ⟨_, textValue (Text.replaceAll [] (letters n) (letters n)), compile_productText n, ?_, ?_⟩
  · exact invoke_of_costs hl (costs_textMethod hl rfl (hargs _ _)) rfl (by decide)
  · rw [textValue, size, utf8ByteSize_ofList, bytes_replaceAll_letters]

/-- The bound without the condition fails: five steps on 200 letters give more than 10000 bytes. -/
theorem exists_size_gt : ∃ code f v, compile code = .ok f ∧ invoke 5 f [] = .ok v ∧
    (5 + 1) * (code.utf8ByteSize + itemsSize [] + 1000) < size v := by
  obtain ⟨f, v, hf, hv, hsize⟩ := size_product 100
  refine ⟨_, f, v, hf, hv, ?_⟩
  rw [hsize, utf8ByteSize_productText]
  decide

end LiveNotes.Script
