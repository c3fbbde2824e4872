import UiDoc.Binding.Transform
import UiDoc.Proofs.Script.Confinement
import UiDoc.Proofs.Script.Values

/-!
# Texts that are expressions and scripts

A text of the language of expressions may be a script as well.  If its literals and paths are among
those that both languages have in common, the operators between them lead to the same value in both
languages, although each of them reads the text in its own way.
-/

namespace UiDoc.Script

open UiDoc.Expr (Whole Chain Operand)

namespace Parser

/-- The tree that is read means what the expression stands for. -/
abbrev MeansSame (scope : Scope) (e : Expr) (tree : Tree) : Prop :=
  Means scope tree (e.eval scope)

variable {scope : Scope} {leaf : List Char → Expr → Prop} {cs tail rest : List Char} {e a : Expr}
  {left : Tree} {l v : Value} {P : Tree → Prop}

/-! ## Operators -/

theorem infixedRest_reads_end (closes : GoesOn closers rest) (has : P left) (fuel : Nat) :
    Reads (infixedRest fuel top 0 left) [] rest P := by
  intro cursor stands
  refine (infixedRest_gives (.inl (closes.token cursor stands))).mono fun tree next same => ?_
  rw [same.1, same.2]
  exact ⟨stands, has⟩

theorem sign_mem_infixes (comparison : Comparison) : comparison.sign ∈ infixes := by
  cases comparison <;> decide

theorem reads_compare (comparison : Comparison) (operand : ReadsOperand cs (MeansSame scope a))
    (means : Means scope left l) (closes : GoesOn closers rest) (fuel : Nat) :
    Reads (infixedRest fuel top 0 left) (comparison.sign.toList ++ (cs ++ [])) rest
      (Means scope · (some (.bool (comparison.holds l (a.eval scope))))) := by
  have denotes : ∃ binding, Infix.ofToken true (.sign comparison.sign) =
      some (.binary (.compare comparison), binding + 1) := by
    cases comparison
    all_goals exact ⟨_, rfl⟩
  obtain ⟨binding, denotes⟩ := denotes
  have goesOn : GoesOn followers ([] ++ rest) := closes.of_closers
  refine infixedRest_reads (sign_mem_infixes comparison) denotes operand goesOn
    (fun cursor stands => .inl (closes.token cursor stands)) (fun fuel r tree has made => ?_) fuel
  cases made
  exact infixedRest_reads_end closes (means_compare comparison means has) fuel

theorem reads_fallback (operand : ReadsOperand cs (MeansSame scope a)) (means : Means scope left l)
    (goesOn : GoesOn followers (tail ++ rest))
    (ends : ∀ cursor : Cursor, cursor.At (tail ++ rest) →
      cursor.token ∈ closers ∨ cursor.token = .sign "||")
    (continues : ∀ fuel tree, Means scope tree (if Value.truthy l then l else a.eval scope) →
      Reads (infixedRest fuel top 0 tree) tail rest (Means scope · v)) (fuel : Nat) :
    Reads (infixedRest fuel top 0 left) ('|' :: '|' :: (cs ++ tail)) rest (Means scope · v) := by
  have denotes : Infix.ofToken true (.sign "||") = some (.logical .or, 1 + 1) := rfl
  refine infixedRest_reads (s := "||") (List.mem_cons_self ..) denotes operand goesOn
    (fun cursor stands => (ends cursor stands).imp_right fun token => ⟨token, rfl⟩)
    (fun fuel r tree has made => ?_) fuel
  cases made
  exact continues fuel _ (means_or means has)

/-- Behind `||`, the text is one or more operands of which the first that counts has the value. -/
structure ReadsChain (scope : Scope) (cs : List Char) (v : Value) : Prop where
  apart : ∀ {rest}, ∀ c ∈ (cs ++ rest).head?, c ∉ ['=', '<', '>']
  reads : ∀ {rest left l}, GoesOn closers rest → Means scope left l → ∀ fuel,
    Reads (infixedRest fuel top 0 left) ('|' :: '|' :: cs) rest
      (Means scope · (if Value.truthy l then l else v))

theorem ReadsChain.goesOn (chain : ReadsChain scope cs v) :
    GoesOn followers ('|' :: '|' :: cs ++ rest) :=
  goesOn_infix (s := "||") (List.mem_cons_self ..) chain.apart

theorem ReadsChain.starts (chain : ReadsChain scope cs v) :
    Starts ('|' :: '|' :: cs ++ rest) (.sign "||") (cs ++ rest) :=
  starts_operator (s := "||") (by decide) chain.apart

theorem ReadsOperand.chain (operand : ReadsOperand cs (MeansSame scope a)) :
    ReadsChain scope cs (a.eval scope) where
  apart := operand.apart
  reads := fun {rest left l} closes means fuel => by
    have goesOn : GoesOn followers ([] ++ rest) := closes.of_closers
    have reads := reads_fallback operand means goesOn
      (fun cursor stands => .inl (closes.token cursor stands))
      (fun fuel tree has => infixedRest_reads_end closes has fuel) fuel
    rwa [List.append_nil] at reads

/-- What counts does not depend on how the operands of `||` are grouped. -/
theorem ReadsChain.cons (operand : ReadsOperand cs (MeansSame scope a))
    (chain : ReadsChain scope tail v) :
    ReadsChain scope (cs ++ '|' :: '|' :: tail)
      (if Value.truthy (a.eval scope) then a.eval scope else v) where
  apart := fun {rest} => by
    rw [List.append_assoc]
    exact operand.apart
  reads := fun {rest left l} closes means fuel => by
    refine reads_fallback operand means chain.goesOn
      (fun cursor stands => .inr (chain.starts cursor stands).1) (fun fuel tree has => ?_) fuel
    have reads := chain.reads closes has fuel
    by_cases truthy : Value.truthy l = true
    · simpa [truthy] using reads
    · simpa [truthy] using reads

mutual

/-- What is written like an expression is read as one, and means what the expression stands for. -/
theorem reads_whole {cs : List Char} {e : Expr}
    (leaves : ∀ cs e, leaf cs e → ReadsOperand cs (MeansSame scope e)) :
    Whole leaf cs e → ReadsExpression cs (MeansSame scope e)
  | .operand operand => (reads_operand leaves operand).expression
  | .compare comparison left right => by
      have operand := reads_operand leaves right
      refine (reads_operand leaves left).followed (fun rest _ => ?_)
        fun rest closes fuel tree has => ?_
      · rw [List.append_assoc]
        exact goesOn_infix (sign_mem_infixes comparison) operand.apart
      · have reads := reads_compare comparison operand has closes fuel
        rwa [List.append_nil] at reads
  | .fallback left right =>
      have chain := reads_chain leaves right
      (reads_operand leaves left).followed (fun rest _ => chain.goesOn)
        fun rest closes fuel tree has => chain.reads closes has fuel

/-- Likewise for the operands behind `||`. -/
theorem reads_chain {cs : List Char} {e : Expr}
    (leaves : ∀ cs e, leaf cs e → ReadsOperand cs (MeansSame scope e)) :
    Chain leaf cs e → ReadsChain scope cs (e.eval scope)
  | .last operand _ => (reads_operand leaves operand).chain
  | .fallback left right => (reads_chain leaves right).cons (reads_operand leaves left)

/-- Likewise for an operand. -/
theorem reads_operand {cs : List Char} {e : Expr}
    (leaves : ∀ cs e, leaf cs e → ReadsOperand cs (MeansSame scope e)) :
    Operand leaf cs e → ReadsOperand cs (MeansSame scope e)
  | .leaf leaf => leaves _ _ leaf
  | .paren whole => (reads_whole leaves whole).paren fun _ => means_paren
  | .not operand => (reads_operand leaves operand).not fun _ has => means_unary .not has
  | .padded blankLead blankTrail operand =>
      (reads_operand leaves operand).padded blankLead blankTrail

end

/-! ## Literals and paths -/

theorem named?_data : scope.named? "data" = scope.root? "data" :=
  Scope.named?_eq_root? rfl

theorem isName_data : isName "data".toList = true := by
  decide

theorem data_not_mem_ownWords : String.ofList "data".toList ∉ ownWords := by
  decide

/-- By its name, the root is a record. -/
theorem scopeValue?_root (root : scope.dataIsRoot = true) :
    scopeValue? scope "data" = some (.obj scope.merged) := by
  have none : scope.root? "data" = none := by
    simpa [Scope.dataIsRoot, Scope.hasRoot] using root
  rw [scopeValue?, named?_data, none]
  rfl

/-- Names other than that of the root denote the same in both languages. -/
theorem scopeValue?_eq_named? {name : String}
    (notRoot : name = "data" → scope.dataIsRoot = false) :
    scopeValue? scope name = scope.named? name := by
  unfold scopeValue?
  split
  next found => exact found.symm
  next missing =>
    have other : name ≠ "data" := by
      rintro rfl
      have present := notRoot rfl
      rw [named?_data] at missing
      simp [Scope.dataIsRoot, Scope.hasRoot, missing] at present
    rw [missing, if_neg other]

theorem means_plain {name : String} (plain : name ∉ ownWords)
    (notRoot : name = "data" → scope.dataIsRoot = false) :
    Means scope (.name name) (scope.named? name) := by
  have own : ∀ word ∈ ["undefined", "NaN", "Infinity"], word ∈ ownWords := by decide
  rw [← scopeValue?_eq_named? notRoot]
  exact means_name fun listed => plain (own _ listed)

theorem means_root (root : scope.dataIsRoot = true) :
    Means scope (.name "data") (some (.obj scope.merged)) := by
  rw [← scopeValue?_root root]
  exact means_name (by decide)

theorem readsOperand_name {head text : List Char} {segments : List String}
    (is : isName head = true) (plain : String.ofList head ∉ ownWords)
    (means : Means scope (.name (String.ofList head)) v) (accesses : Accesses text segments) :
    ReadsOperand (head ++ text) (Means scope · (Path.follow v segments)) := by
  have own : ∀ word ∈ reservedWords ++ ["await"], word ∈ ownWords := by decide
  exact readsOperand_path is (fun listed => plain (own _ listed)) means accesses

/-- The words that are literals of an expression are read by a script as what they stand for. -/
theorem readsOperand_literalWord (scope : Scope) {word : String} (listed : word ∈ literalWords) :
    ∃ v, Expr.readLiteral word.toList = some v ∧ ReadsOperand word.toList (Means scope · v) := by
  simp only [literalWords, List.mem_cons, List.not_mem_nil, or_false] at listed
  rcases listed with rfl | rfl | rfl | rfl
  · exact ⟨_, rfl, readsOperand_word (.truth true) (by decide) rfl (means_literal rfl)⟩
  · exact ⟨_, rfl, readsOperand_word (.truth false) (by decide) rfl (means_literal rfl)⟩
  · exact ⟨_, rfl, readsOperand_word .null (by decide) rfl (means_literal rfl)⟩
  · exact ⟨_, rfl, readsOperand_path (by decide) (by decide) means_undefined .nil⟩

/-- A path means the same if it is read as the value that its text without white space denotes. -/
theorem reads_path (denotes : scope.lookupChars (solid cs) = v)
    (operand : ReadsOperand cs (Means scope · v)) :
    ReadsOperand cs (MeansSame scope (.path (String.ofList (solid cs)))) := by
  have same : (Expr.path (String.ofList (solid cs))).eval scope = v := by
    rw [Expr.eval, Scope.lookup, String.toList_ofList, denotes]
  rwa [← same] at operand

/-- A literal or a path that both languages have in common is read as what it stands for. -/
theorem reads_common (common : Common scope cs) (leaf : Expr.leaf? cs = some e) :
    ReadsOperand cs (MeansSame scope e) := by
  cases common with
  | word listed =>
      obtain ⟨v, read, operand⟩ := readsOperand_literalWord scope listed
      cases leaf?_of_readLiteral read leaf
      exact operand
  | quoted quote shares =>
      cases leaf?_of_readLiteral (readLiteral_quoted quote (hasBareQuote_of_sharesText shares)) leaf
      exact readsOperand_quoted scope quote shares
  | numeral read shares =>
      cases leaf?_of_readLiteral (readLiteral_numeral read) leaf
      exact readsOperand_numeral scope read shares
  | negative read shares kept =>
      cases leaf?_of_readLiteral (readLiteral_negative read) leaf
      exact readsOperand_negative read shares kept
  | path is plain notRoot accesses =>
      cases leaf?_path is plain accesses leaf
      exact reads_path (lookupChars_path is notRoot accesses)
        (readsOperand_name is plain (means_plain plain notRoot) accesses)
  | root root =>
      have bare : Accesses [] [] := .nil
      cases leaf?_path isName_data data_not_mem_ownWords bare leaf
      exact reads_path (lookupChars_root root)
        (readsOperand_name isName_data data_not_mem_ownWords (means_root root) bare)
  | @field lead trail name text segments root distinct blankLead blankTrail is other noState
      noBindings accesses =>
      have behind : Accesses (lead ++ '.' :: (trail ++ (name ++ text)))
          (String.ofList name :: segments) :=
        .point blankLead blankTrail is accesses
      cases leaf?_path isName_data data_not_mem_ownWords behind leaf
      have operand := readsOperand_name isName_data data_not_mem_ownWords (means_root root) behind
      refine reads_path ?_ operand
      rw [lookupChars_field root blankLead blankTrail is other accesses,
        Scope.named?_eq_root? (Scope.layer?_eq_none.2 ⟨noState, noBindings⟩),
        ← Scope.find?_merged distinct]
      rfl

end Parser

/-! ## Expressions that are scripts -/

/-- A literal or a path of an expression that means the same in a script. -/
def SharedLeaf (scope : Scope) (cs : List Char) (e : Expr) : Prop :=
  Expr.leaf? cs = some e ∧ Common scope cs

/-- The text is an expression, and its literals and paths mean the same in a script. -/
def WrittenAlike (scope : Scope) (text : String) : Prop :=
  ∃ e, Expr.parse? text = some e ∧ Whole (SharedLeaf scope) text.toList e

variable {scope : Scope} {text : String} {tree : Tree} {v w : Value}

/-- Whatever tree is read from such a text means what the expression stands for. -/
theorem WrittenAlike.means (alike : WrittenAlike scope text) (value : Expr.eval? scope text = some v)
    (parsed : Tree.parse? text = some tree) : Means scope tree v := by
  obtain ⟨e, read, whole⟩ := alike
  rw [Expr.eval?, read] at value
  cases value
  obtain ⟨first, stands, parsed⟩ := Option.bind_eq_some_iff.1 parsed
  obtain ⟨⟨found, last⟩, run, accepted⟩ := Option.bind_eq_some_iff.1 parsed
  have same : found = tree := by
    simp only at accepted
    split at accepted
    · cases accepted
    · exact Option.some.inj accepted
  subst same
  have expression := Parser.reads_whole (fun _ _ leaf => Parser.reads_common leaf.2 leaf.1) whole
  have reads := Parser.expression_reads expression goesOn_nil (16 * text.toList.length + 64)
  refine (reads first ?_ found last run).2
  rw [List.append_nil]
  exact .of_first? stands

/-- A script that is no function gives nothing but what its tree means. -/
theorem Program.run?_of_means {program : Program} (means : Means scope tree v)
    (made : Term.ofTree? tree = some program.root) (ran : program.run? scope [] = some w) :
    w = v := by
  obtain ⟨noFunction, gives⟩ := means program.root made
  obtain ⟨-, after, outcome⟩ := Program.run?_eq_some.1 ran
  have plain : Program.body scope [] program.root = eval scope program.root := by
    unfold Program.body
    split
    next same => exact absurd same (noFunction _ _)
    next => rfl
  rw [plain] at outcome
  exact (gives {} rfl).2 w (by rw [outcome])

/-- The two languages agree where they are written alike: if a text is an expression, and if it can
be run as a script, then both give the same value.  It makes no difference then to a transform that
it is an expression before it is a script. -/
theorem Cache.evaluate_agrees {cache : Cache} (faithful : cache.Faithful)
    (alike : WrittenAlike scope text) (value : Expr.eval? scope text = some v)
    (gives : (cache.evaluate text scope []).1 = some w) :
    v = w ∧ ∀ (outer : Scope) (input : Value) (journal : Journal),
      startsLikeFunction text = false → Transform.valueScope outer input = scope →
        (Transform.apply text outer input).run journal = (w, journal) := by
  rw [(faithful.evaluate text scope []).1] at gives
  obtain ⟨program, compiled, ran⟩ := Option.bind_eq_some_iff.1 gives
  obtain ⟨tree, parsed, compiled⟩ := Option.bind_eq_some_iff.1 compiled
  obtain ⟨root, made, compiled⟩ := Option.bind_eq_some_iff.1 compiled
  cases compiled
  have agrees : w = v := Program.run?_of_means (alike.means value parsed) made ran
  refine ⟨agrees.symm, fun outer input journal plain same => ?_⟩
  have result : Transform.result? text outer input = pure (some v) := by
    simp only [Transform.result?, plain, same, value, Bool.false_eq_true, if_false]
  rw [Transform.apply, result, agrees]
  rfl

/-- An item of a value is compared, and a field of the root is what is left. -/
theorem Cache.evaluate_agrees_title :
    let text := "(value['plan'] == 'pro') || data.title"
    let outer : Scope := { data := .obj [("title", .str "Dear")] }
    let input : Value := some (.obj [("plan", .str "basic")])
    let scope := Transform.valueScope outer input
    WrittenAlike scope text ∧ startsLikeFunction text = false ∧
      ∃ v w, Expr.eval? scope text = some v ∧ (({} : Cache).evaluate text scope []).1 = some w ∧
        w.map Json.print = some "\"Dear\"" ∧ v = w ∧
          ∀ journal, (Transform.apply text outer input).run journal = (w, journal) := by
  let e : Expr := .fallback
    (.compare .looseEq (.path "value['plan']") (.literal (some (.str "pro")))) (.path "data.title")
  have read : Expr.parse? "(value['plan'] == 'pro') || data.title" = some e := by
    with_unfolding_all rfl
  intro text outer input scope
  have none : Blank [] := nofun
  have one : Blank [' '] := Text.forall_of_all (by decide)
  have mark : '\'' ∈ ['"', '\''] := by decide
  have head : isName "value".toList = true := by decide +kernel
  have name : isName "title".toList = true := by decide +kernel
  have bracket : Accesses "['plan']".toList ["plan"] :=
    .key mark none none (by decide : isKey '\'' "plan".toList = true) .nil
  have plan : SharedLeaf scope "value['plan']".toList (.path "value['plan']") :=
    ⟨rfl, .path head (by decide) (by decide) bracket⟩
  have pro : SharedLeaf scope "'pro'".toList (.literal (some (.str "pro"))) :=
    ⟨rfl, .quoted mark (by decide : sharesText '\'' "pro".toList = true)⟩
  have title : SharedLeaf scope "data.title".toList (.path "data.title") :=
    ⟨rfl, .field (by decide) (by decide) none none name (by decide) (by decide) (by decide) .nil⟩
  have compared : Whole (SharedLeaf scope) "value['plan'] == 'pro'".toList
      (.compare .looseEq (.path "value['plan']") (.literal (some (.str "pro")))) :=
    .compare .looseEq (.padded none one (.leaf plan)) (.padded one none (.leaf pro))
  have parts : "(value['plan'] == 'pro') || data.title".toList =
      [] ++ ('(' :: ("value['plan'] == 'pro'".toList ++ [')']) ++ [' ']) ++
        '|' :: '|' :: ([' '] ++ ("data.title".toList ++ [])) := rfl
  have whole : Whole (SharedLeaf scope) "(value['plan'] == 'pro') || data.title".toList e := by
    rw [parts]
    exact .fallback (.padded none one (.paren compared))
      (.last (.padded one none (.leaf title)) rfl)
  have alike : WrittenAlike scope text := ⟨_, read, whole⟩
  have plain : startsLikeFunction text = false := by decide +kernel
  have shown : (({} : Cache).evaluate text scope []).1.map (·.map Json.print) =
      some (some "\"Dear\"") := by decide +kernel
  obtain ⟨w, gives, printed⟩ := Option.map_eq_some_iff.1 shown
  have value : Expr.eval? scope text = some (e.eval scope) :=
    Option.map_eq_some_iff.2 ⟨e, read, rfl⟩
  obtain ⟨same, applied⟩ := Cache.evaluate_agrees Cache.faithful_empty alike value gives
  exact ⟨alike, plain, _, w, value, gives, printed, same,
    fun journal => applied outer input journal plain rfl⟩

/-- Texts that both languages accept and do not agree on: words of scripts in the place of names,
escapes that expressions do not know, a zero in front of other digits, a long row of digits, a
number that is none without its sign, white space in a key, a number behind a point, and the root as
a record. -/
theorem Cache.evaluate_differs :
    let scope : Scope :=
      { data := .obj [("x", .str "x"), ("items", .arr [.obj [("title", .str "first")]]),
          ("o", .obj [("a b", .str "kept"), ("ab", .str "lost"), ("0", .str "0"), ("00", .str "00")]),
          ("true", .obj [("x", .str "x")]), ("typeof", .arr [.str "x"]), ("state", .str "x")],
        state := some (.str "layer") }
    ∀ text ∈ ["NaN", "Infinity", "true.x", "typeof[0]", "'\\b'", "'\\0'", "'\\x41'", "'\\u0041'",
        "'a\\\nb'", "012", "67515448340910453820", "-1e400", "o['a b']", "o[00]", "items.0.title",
        "data['x']", "data.data", "data.state"],
      ∃ v w, Expr.eval? scope text = some v ∧
        (({} : Cache).evaluate text scope []).1 = some w ∧ v ≠ w := by
  intro scope
  have differ : ∀ text, (Expr.eval? scope text).any (fun v =>
      (({} : Cache).evaluate text scope []).1.any fun w =>
        v.map Json.print != w.map Json.print) = true →
      ∃ v w, Expr.eval? scope text = some v ∧
        (({} : Cache).evaluate text scope []).1 = some w ∧ v ≠ w := by
    intro text differs
    obtain ⟨v, value, differs⟩ := (Option.any_eq_true _ _).1 differs
    obtain ⟨w, gives, differs⟩ := (Option.any_eq_true _ _).1 differs
    refine ⟨v, w, value, gives, fun same => ?_⟩
    rw [same, bne_self_eq_false] at differs
    cases differs
  intro text listed
  apply differ text
  revert text
  decide +kernel

end UiDoc.Script
