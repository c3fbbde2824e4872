import UiDoc.Proofs.Expr.Paths
import UiDoc.Proofs.Expr.Quoting

/-!
# Writing expressions down

Parentheses stand around comparisons and chains that are operands.  What is written so is read as
the same expression again, whatever signs, brackets and parentheses stand in its texts and in the
keys of its paths.
-/

namespace UiDoc.Expr

open Nesting (level marks)

variable {cs key : List Char} {e : Expr}

/-! ## Printing -/

/-- Whether an expression consists of two operands. -/
def isBinary : Expr → Bool
  | .compare .. | .fallback .. => true
  | _ => false

/-- The text of an operand, by the text of the expression. -/
def group (e : Expr) (text : List Char) : List Char :=
  if e.isBinary then '(' :: (text ++ [')']) else text

/-- The characters of an expression as it is written. -/
def printChars : Expr → List Char
  | .literal (some (.str s)) => '\'' :: (s.toList ++ ['\''])
  | .literal v => (Value.text v).toList
  | .path text => text.toList
  | .not operand => '!' :: group operand (printChars operand)
  | .compare comparison left right =>
      (group left (printChars left) ++ [' ']) ++
        (comparison.sign.toList ++ ([' '] ++ group right (printChars right)))
  | .fallback left right =>
      (group left (printChars left) ++ [' ']) ++ ('|' :: '|' :: ([' '] ++ printChars right))

/-- An expression as it is written. -/
def print (e : Expr) : String :=
  String.ofList (printChars e)

/-- Whether an expression may stand on the right of `||` as it is. -/
def endsChain : Expr → Bool
  | .literal _ | .path _ | .fallback .. => true
  | _ => false

/-- An expression that can be written down. -/
inductive Printable : Expr → Prop where
  | word {v : Value} : v ∈ [some (.bool true), some (.bool false), some .null, none] →
      Printable (.literal v)
  | text {s : String} : (∀ c ∈ s.toList, c ≠ '\'' ∧ c ≠ '\\') → Printable (.literal (some (.str s)))
  | path {text : String} : PathForm.isPath text.toList = true →
      (∀ c ∈ text.toList, Text.isBlank c = false ∧ c ≠ '\\') → text ∉ Script.literalWords →
      Printable (.path text)
  | not {operand : Expr} : Printable operand → Printable (.not operand)
  | compare {left right : Expr} (comparison : Comparison) : Printable left → Printable right →
      Printable (.compare comparison left right)
  | fallback {left right : Expr} : Printable left → Printable right → endsChain right = true →
      Printable (.fallback left right)

/-! ## Literals and paths -/

/-- Nothing is open or closed in a word, and no sign is in it. -/
theorem plainLeaf_of_plain (read : leaf? cs = some e) (trimmed : Text.trim cs = cs)
    (plain : ∀ c ∈ cs, c ∉ marks ∧ c ∉ signs) : PlainLeaf cs e where
  read := read
  trimmed := trimmed
  shut _ := shut_of_plain plain
  balanced := by
    have listed : ∀ c ∈ ['"', '\'', '(', ')'], c ∈ marks := Text.forall_of_all (by decide)
    exact balanced_of_plain fun c member mark => (plain c member).1 (listed c mark)

theorem plainLeaf_word {v : Value}
    (listed : v ∈ [some (.bool true), some (.bool false), some .null, none]) :
    PlainLeaf (printChars (.literal v)) (.literal v) := by
  simp only [List.mem_cons, List.not_mem_nil, or_false] at listed
  rcases listed with rfl | rfl | rfl | rfl
  all_goals exact plainLeaf_of_plain rfl (by decide) (Text.forall_of_all (by decide))

theorem escape_of_plain {mark : Char} (plain : ∀ c ∈ cs, c ≠ mark ∧ c ≠ '\\') :
    escape mark cs = cs := by
  induction cs with
  | nil => rfl
  | cons c cs ih =>
      obtain ⟨⟨noMark, noEscape⟩, plain⟩ := List.forall_mem_cons.1 plain
      rw [escape_cons_of_plain (by simp [noMark, noEscape]), ih plain]

theorem plainLeaf_text {s : String} (plain : ∀ c ∈ s.toList, c ≠ '\'' ∧ c ≠ '\\') :
    PlainLeaf (printChars (.literal (some (.str s)))) (.literal (some (.str s))) := by
  have quote : '\'' ∈ ['"', '\''] := by decide
  have same := escape_of_plain plain
  have noQuote := hasBareQuote_escape '\'' s.toList
  have complete := endsInEscape_escape '\'' s.toList
  have unescaped := unescape_escape quote s.toList
  rw [same] at noQuote complete unescaped
  have read := leaf?_quoted quote noQuote
  rw [unescaped, String.ofList_toList] at read
  exact
    { read
      trimmed := trim_quoted quote s.toList
      shut := fun _ => shut_quoted quote noQuote complete
      balanced := balanced_quoted quote fun member => (plain '\'' member).1 rfl }

theorem mem_of_mem_outsideQuotes {quote : Option Char} {c : Char}
    (member : c ∈ outsideQuotes quote cs) : c ∈ cs := by
  fun_induction outsideQuotes quote cs with
  | case1 => exact member
  | case2 d cs opens ih => exact List.mem_cons_of_mem d (ih member)
  | case3 d cs other ih =>
      rcases List.mem_cons.1 member with rfl | later
      · exact List.mem_cons_self ..
      · exact List.mem_cons_of_mem d (ih later)
  | case4 mark d cs ih => exact List.mem_cons_of_mem d (ih member)

/-- Between the quotes of a text there are only characters of the text. -/
theorem mem_of_mem_betweenQuotes {current : Option (Char × List Char)} {c : Char}
    (found : key ∈ betweenQuotes current cs) (member : c ∈ key) :
    c ∈ (current.elim [] Prod.snd) ∨ c ∈ cs := by
  fun_induction betweenQuotes current cs with
  | case1 => cases found
  | case2 d cs opens ih =>
      exact .inr (List.mem_cons_of_mem d ((ih found).resolve_left nofun))
  | case3 d cs other ih =>
      exact .inr (List.mem_cons_of_mem d ((ih found).resolve_left nofun))
  | case4 mark before cs ih =>
      rcases List.mem_cons.1 found with rfl | later
      · exact .inl (List.mem_reverse.1 member)
      · exact .inr (List.mem_cons_of_mem _ ((ih later).resolve_left nofun))
  | case5 mark before d cs other ih =>
      rcases ih found with inside | behind
      · rcases List.mem_cons.1 inside with rfl | before
        · exact .inr (List.mem_cons_self ..)
        · exact .inl before
      · exact .inr (List.mem_cons_of_mem d behind)

theorem endsInEscape_of_forall_ne (noEscape : ∀ c ∈ cs, c ≠ '\\') : endsInEscape cs = false := by
  induction cs with
  | nil => rfl
  | cons c cs ih =>
      obtain ⟨differs, noEscape⟩ := List.forall_mem_cons.1 noEscape
      rw [endsInEscape, ih noEscape]
      · exact fun same => absurd same differs
      · exact fun _ _ same => absurd same differs

theorem plainLeaf_printPath {text : String} (is : PathForm.isPath text.toList = true)
    (plain : ∀ c ∈ text.toList, Text.isBlank c = false ∧ c ≠ '\\')
    (noWord : text ∉ Script.literalWords) : PlainLeaf (printChars (.path text)) (.path text) := by
  have tight : ∀ c ∈ outsideQuotes none text.toList, Text.isBlank c = false :=
    fun c member => (plain c (mem_of_mem_outsideQuotes member)).1
  have complete : ∀ key ∈ betweenQuotes none text.toList, endsInEscape key = false := by
    refine fun key found => endsInEscape_of_forall_ne fun c member => ?_
    exact (plain c ((mem_of_mem_betweenQuotes found member).resolve_left nofun)).2
  have leaf := plainLeaf_path is tight noWord complete
  rwa [Script.solid_of_not_blank fun c member => (plain c member).1, String.ofList_toList] at leaf

/-! ## Reading what is printed -/

/-- An expression is written like one, an operand like an operand, and the right side of `||` like a
chain. -/
structure Written (e : Expr) : Prop where
  whole : Whole PlainLeaf (printChars e) e
  operand : Operand PlainLeaf (group e (printChars e)) e
  chain : endsChain e = true → Chain PlainLeaf (printChars e) e

theorem written_leaf (leaf : PlainLeaf (printChars e) e) (single : isLeaf e = true)  :
    Written e where
  whole := .operand (.leaf leaf)
  operand := by
    have same : group e (printChars e) = printChars e := by
      cases e with
      | literal | path => rfl
      | not | compare | fallback => cases single
    exact same.symm ▸ .leaf leaf
  chain _ := .last (.leaf leaf) single

theorem blank_space : ∀ c ∈ [' '], Text.isBlank c = true :=
  Text.forall_of_all (by decide)

theorem written (printable : Printable e) : Written e := by
  induction printable with
  | word listed => exact written_leaf (plainLeaf_word listed) rfl
  | text plain => exact written_leaf (plainLeaf_text plain) rfl
  | path is plain noWord => exact written_leaf (plainLeaf_printPath is plain noWord) rfl
  | not _ ih => exact ⟨.operand (.not ih.operand), .not ih.operand, nofun⟩
  | compare comparison _ _ ihLeft ihRight =>
      have whole := Whole.compare comparison (ihLeft.operand.trailed blank_space)
        (ihRight.operand.led blank_space)
      exact ⟨whole, .paren whole, nofun⟩
  | @fallback left right _ _ ends ihLeft ihRight =>
      have operand := ihLeft.operand.trailed blank_space
      have chain : Chain PlainLeaf ([' '] ++ (printChars right ++ [])) right :=
        (ihRight.chain ends).padded blank_space nofun
      rw [List.append_nil] at chain
      -- the chain on the right needs no parentheses, and is one on the right of another `||`
      have whole := Whole.fallback operand chain
      exact ⟨whole, .paren whole, fun _ => .fallback operand chain⟩

/-- What is printed is read as the same expression. -/
theorem parse?_print (printable : Printable e) : parse? (print e) = some e := by
  rw [parse?, print, String.toList_ofList]
  exact parseChars_of_whole (written printable).whole

/-- Parentheses around a comparison and a chain, with signs and parentheses in a key and in a
text. -/
theorem parse?_print_chain :
    let e : Expr := .not (.fallback (.compare .strictEq (.path "a['||)'].b")
      (.literal (some (.str "x == (y")))) (.fallback (.not (.path "n[0]")) (.literal none)))
    Printable e ∧ print e = "!((a['||)'].b === 'x == (y') || !n[0] || undefined)" ∧
      parse? (print e) = some e := by
  have printable : Printable (.not (.fallback (.compare .strictEq (.path "a['||)'].b")
      (.literal (some (.str "x == (y")))) (.fallback (.not (.path "n[0]")) (.literal none)))) :=
    .not (.fallback (.compare .strictEq (.path (by decide) (Text.forall_of_all (by decide))
        (by decide)) (.text (Text.forall_of_all (by decide))))
      (.fallback (.not (.path (by decide) (Text.forall_of_all (by decide)) (by decide)))
        (.word (by simp)) rfl) rfl)
  exact ⟨printable, rfl, parse?_print printable⟩

end UiDoc.Expr
