import Reckoner.Proofs.Reading

/- Putting a value in brackets in place of a variable, in the text of a line, among its tokens and
   in its tree; the three agree. A name before an opening bracket is no variable but a function, and
   neither is the name that a line assigns to. -/
namespace Reckoner
open Grammar Token Text

namespace Text

def upNext (c : Char) (cs : List Char) : Bool := (cs.dropWhile isBlank).head? = some c

/-- Whether a lexeme is a use of the variable. `first` says that it is the first of its line. -/
def isUse (x : String) (first : Bool) (lexeme : Lexeme) : Bool :=
  lexeme.token = ⟨.identifier, x⟩ && !upNext '(' lexeme.rest &&
    !(first && upNext '=' lexeme.rest)

/-- The text with `(value)` in place of every use of the variable. -/
def replace (x : String) (value : List Char) (first : Bool) (cs : List Char) : List Char :=
  match cs with
  | [] => []
  | c :: rest =>
    if isBlank c then c :: replace x value first rest
    else
      match _found : Lexeme.longest? (c :: rest) with
      | none => c :: rest
      | some lexeme =>
        (if isUse x first lexeme then '(' :: (value ++ [')']) else lexeme.text)
          ++ replace x value false lexeme.rest
termination_by cs.length
decreasing_by
  · simp
  · exact Lexeme.longest_rest_shorter _found

def replaceLine (x value line : String) : String :=
  String.ofList (replace x value.toList true line.toList)

end Text

namespace Token

def isUse (x : String) (first : Bool) (token : Token) (rest : List Token) : Bool :=
  token = ⟨.identifier, x⟩ && Kind.next rest ≠ .bracketOpen &&
    !(first && Kind.next rest = .equal)

def replace (x : String) (value : List Token) (first : Bool) : List Token → List Token
  | [] => []
  | token :: rest =>
    (if isUse x first token rest then ⟨.bracketOpen, "("⟩ :: (value ++ [⟨.bracketClose, ")"⟩])
      else [token]) ++ replace x value false rest

end Token

def Tree.replace (x : String) (value : Tree) : Tree → Tree
  | .number n => .number n
  | .name y => if y = x then value else .name y
  | .call f argument => .call f (replace x value argument)
  | .unary op operand => .unary op (replace x value operand)
  | .binary op left right => .binary op (replace x value left) (replace x value right)
  | .assign y inner => .assign y (replace x value inner)

namespace Text

theorem replace_blanks (x : String) (value : List Char) (first : Bool) {gap : List Char}
    (blank : ∀ c ∈ gap, isBlank c) (cs : List Char) :
    replace x value first (gap ++ cs) = gap ++ replace x value first cs := by
  induction gap with
  | nil => rfl
  | cons c gap ih =>
    have white : isBlank c = true := blank c (by simp)
    rw [List.cons_append, replace, if_pos white, List.cons_append]
    rw [ih fun d member => blank d (List.mem_cons_of_mem c member)]

theorem replace_lexeme (x : String) (value : List Char) (first : Bool) {kind : Kind}
    {text rest : List Char} (shape : Shape kind text) (ends : Lexeme.Ends kind text rest) :
    replace x value first (text ++ rest) =
      (if isUse x first ⟨kind, text, rest⟩ then '(' :: (value ++ [')']) else text)
        ++ replace x value false rest := by
  have found := Lexeme.longest_of_shape shape ends
  obtain ⟨c, cs, rfl, visible, _⟩ := shape_starts shape
  rw [List.cons_append] at found ⊢
  rw [replace, if_neg (Bool.eq_false_iff.mp visible)]
  split
  · rename_i missing
    rw [missing] at found
    contradiction
  · rename_i lexeme same
    rw [same] at found
    cases found
    rfl

theorem first_iff {kind other : Kind} {c d : Char}
    (first : other = .number ∧ d.isDigit ∨ other = .identifier ∧ d.isAlpha ∨
      other.symbol? = some d) (known : kind.symbol? = some c) : d = c ↔ other = kind := by
  obtain ⟨digit, letter, _, _, sign⟩ := Lexeme.symbol_spec known
  rcases first with ⟨rfl, isDigit⟩ | ⟨rfl, isLetter⟩ | here
  · refine iff_of_false ?_ ?_
    · rintro rfl
      rw [isDigit] at digit
      contradiction
    · rintro rfl
      simp [Kind.symbol?] at known
  · refine iff_of_false ?_ ?_
    · rintro rfl
      rw [isLetter] at letter
      contradiction
    · rintro rfl
      simp [Kind.symbol?] at known
  · constructor
    · rintro rfl
      have other := (Lexeme.symbol_spec here).2.2.2.2
      rw [sign] at other
      exact (Option.some.inj other).symm
    · rintro rfl
      rw [here] at known
      exact Option.some.inj known

theorem up_next_iff {tokens : List Token} {cs : List Char} (spread : Spread tokens cs)
    {kind : Kind} {c : Char} (known : kind.symbol? = some c) :
    upNext c cs = true ↔ Kind.next tokens = kind := by
  have visible := (Lexeme.symbol_spec known).2.2.1
  cases spread with
  | done blank =>
    have none : cs.dropWhile isBlank = [] := by
      rw [← List.append_nil cs, List.dropWhile_append_of_pos blank]
      rfl
    simp only [upNext, none, List.head?_nil, reduceCtorEq, decide_false, Bool.false_eq_true,
      Kind.next, false_iff]
    rintro rfl
    simp [Kind.symbol?] at known
  | @next gap rest token tokens blank shape ends later =>
    obtain ⟨d, ds, text, first⟩ := shape_first shape
    have notBlank : isBlank d = false := by
      obtain ⟨_, _, eq, visible, _⟩ := shape_starts shape
      rw [text, List.cons.injEq] at eq
      rw [eq.1, visible]
    have after : (gap ++ (token.lexeme.toList ++ rest)).dropWhile isBlank = d :: (ds ++ rest) := by
      rw [List.dropWhile_append_of_pos blank, text, List.cons_append]
      exact List.dropWhile_cons_of_neg (Bool.eq_false_iff.mp notBlank)
    simp only [upNext, after, List.head?_cons, Option.some.injEq, decide_eq_true_eq, Kind.next]
    exact first_iff first known

theorem replace_all_blank (x : String) (value : List Char) (first : Bool) {gap : List Char}
    (blank : ∀ c ∈ gap, isBlank c) : replace x value first gap = gap := by
  have replaced := replace_blanks x value first blank []
  rwa [List.append_nil, replace, List.append_nil] at replaced

theorem is_use_token (x : String) (first : Bool) (token : Token) {tokens : List Token}
    {rest : List Char} (spread : Spread tokens rest) :
    isUse x first ⟨token.kind, token.lexeme.toList, rest⟩ =
      Token.isUse x first token tokens := by
  have opening : upNext '(' rest = decide (Kind.next tokens = .bracketOpen) := by
    have known : Kind.symbol? .bracketOpen = some '(' := rfl
    rw [Bool.eq_iff_iff, up_next_iff spread known, decide_eq_true_iff]
  have equal : upNext '=' rest = decide (Kind.next tokens = .equal) := by
    have known : Kind.symbol? .equal = some '=' := rfl
    rw [Bool.eq_iff_iff, up_next_iff spread known, decide_eq_true_iff]
  simp only [isUse, Token.isUse, Lexeme.token, String.ofList_toList, opening, equal,
    decide_not, ne_eq]

theorem replace_head (x : String) (value : List Char) (first : Bool) {tokens : List Token}
    {cs : List Char} (spread : Spread tokens cs) :
    ∀ c ∈ (replace x value first cs).head?, c ∈ cs.head? ∨ c = '(' := by
  intro c head
  cases spread with
  | done blank =>
    rw [replace_all_blank x value first blank] at head
    exact .inl head
  | @next gap rest token tokens blank shape ends later =>
    rw [replace_blanks x value first blank, replace_lexeme x value first shape ends] at head
    obtain ⟨d, ds, text, _⟩ := shape_starts shape
    rw [text] at head ⊢
    cases gap with
    | nil =>
      split at head
      · exact .inr (by simpa using head.symm)
      · exact .inl (by simpa using head)
    | cons e gap => exact .inl (by simpa using head)

theorem spread_replace (x : String) {valueTokens : List Token} {value : List Char}
    (given : Spread valueTokens value) {tokens : List Token} {cs : List Char}
    (spread : Spread tokens cs) (first : Bool) :
    Spread (Token.replace x valueTokens first tokens) (replace x value first cs) := by
  induction spread generalizing first with
  | @done gap blank =>
    rw [replace_all_blank x value first blank]
    exact .done blank
  | @next gap rest token tokens blank shape ends later ih =>
    have tail := ih false
    rw [replace_blanks x value first blank, replace_lexeme x value first shape ends,
      is_use_token x first token later, Token.replace]
    split
    · -- the brackets keep the value apart from its neighbours on both sides
      have touching : ∀ c ∈ ([] : List Char), isBlank c := by simp
      have closing : Spread (⟨.bracketClose, ")"⟩ :: Token.replace x valueTokens false tokens)
          (')' :: replace x value false rest) :=
        .next touching (.symbol rfl) trivial tail
      have inside := spread_append given (Lexeme.clear_of_head rfl rfl (by decide) _) closing
      have opening : Spread (⟨.bracketOpen, "("⟩ :: (valueTokens ++
          ⟨.bracketClose, ")"⟩ :: Token.replace x valueTokens false tokens))
          (gap ++ '(' :: (value ++ ')' :: replace x value false rest)) :=
        .next blank (.symbol rfl) trivial inside
      simpa using opening
    · refine .next blank shape (ends_of_head ends (spread_not_point later) ?_) tail
      intro c head
      rcases replace_head x value false later c head with same | rfl
      · exact .inl same
      · exact .inr (by decide)

end Text

namespace Token

theorem replace_other (x : String) (value : List Token) (first : Bool) {token : Token}
    (other : token.kind ≠ .identifier) (rest : List Token) :
    replace x value first (token :: rest) = token :: replace x value false rest := by
  have differs : token ≠ ⟨.identifier, x⟩ := fun same => other (by rw [same])
  simp [replace, isUse, differs]

theorem replace_function (x : String) (value : List Token) (first : Bool) (token : Token)
    {rest : List Token} (opening : Kind.next rest = .bracketOpen) :
    replace x value first (token :: rest) = token :: replace x value false rest := by
  simp [replace, isUse, opening]

theorem replace_target (x : String) (value : List Token) (token : Token) {rest : List Token}
    (equal : Kind.next rest = .equal) :
    replace x value true (token :: rest) = token :: replace x value false rest := by
  simp [replace, isUse, equal]

theorem replace_first (x : String) (value : List Token) (token : Token) {rest : List Token}
    (noEqual : Kind.next rest ≠ .equal) :
    replace x value true (token :: rest) = replace x value false (token :: rest) := by
  simp [replace, isUse, noEqual]

end Token

namespace Grammar

theorem derives_replace (x : String) {valueTokens : List Token} {value : Tree}
    (given : Derives .expression valueTokens value) {phrase : Phrase} {xs : List Token}
    {tree : Tree} (derives : Derives phrase xs tree) (rest : List Token)
    (next : Kind.next rest ≠ .bracketOpen) :
    ∃ ys, Token.replace x valueTokens false (xs ++ rest) =
        ys ++ Token.replace x valueTokens false rest ∧
      Derives phrase ys (Tree.replace x value tree) := by
  -- a bracket behind the phrase would make a function of a name at its end
  induction derives generalizing rest with
  | unsigned _ ih =>
    obtain ⟨ys, eq, sum⟩ := ih rest next
    exact ⟨ys, eq, .unsigned sum⟩
  | @signed token xs op tree sign _ ih =>
    obtain ⟨ys, eq, sum⟩ := ih rest next
    have other : token.kind ≠ .identifier := fun name => sign_not_word sign (.inr name)
    refine ⟨token :: ys, ?_, .signed sign sum⟩
    rw [List.cons_append, Token.replace_other x _ _ other, eq, List.cons_append]
  | single operands _ ih =>
    obtain ⟨ys, eq, first⟩ := ih rest next
    exact ⟨ys, eq, .single operands first⟩
  | @joined _ _ token xs ys _ _ _ operands _ joint _ leftIh rightIh =>
    have other : token.kind ≠ .identifier := fun name => joint_not_word joint (.inr name)
    obtain ⟨front, leftEq, before⟩ := leftIh (token :: (ys ++ rest)) (joint_kind joint).2.1
    obtain ⟨back, rightEq, last⟩ := rightIh rest next
    refine ⟨front ++ token :: back, ?_, .joined operands before joint last⟩
    rw [List.append_assoc, List.cons_append, leftEq, Token.replace_other x _ _ other, rightEq,
      List.append_assoc, List.cons_append]
  | number =>
    refine ⟨_, ?_, .number⟩
    exact Token.replace_other x valueTokens false (by simp) rest
  | @name lexeme =>
    by_cases same : lexeme = x
    · subst same
      have brackets : Derives .atom (⟨.bracketOpen, "("⟩ :: (valueTokens ++ [⟨.bracketClose, ")"⟩]))
          value := .bracketed rfl rfl given
      refine ⟨_, ?_, by simpa [Tree.replace] using brackets⟩
      simp [Token.replace, Token.isUse, next]
    · refine ⟨[⟨.identifier, lexeme⟩], ?_, by simpa [Tree.replace, same] using .name⟩
      simp [Token.replace, Token.isUse, same]
  | @call lexeme opening closing xs tree letters first last _ ih =>
    obtain ⟨ys, eq, argument⟩ := ih (closing :: rest) (by simp [Kind.next, last])
    refine ⟨⟨.identifier, lexeme⟩ :: opening :: (ys ++ [closing]), ?_,
      .call letters first last argument⟩
    have openingOther : opening.kind ≠ .identifier := by simp [first]
    have closingOther : closing.kind ≠ .identifier := by simp [last]
    rw [List.cons_append, List.cons_append, List.append_assoc,
      Token.replace_function x _ _ _ (by simpa [Kind.next] using first),
      Token.replace_other x _ _ openingOther, List.singleton_append, eq,
      Token.replace_other x _ _ closingOther]
    simp
  | @bracketed opening closing xs tree first last _ ih =>
    obtain ⟨ys, eq, inside⟩ := ih (closing :: rest) (by simp [Kind.next, last])
    refine ⟨opening :: (ys ++ [closing]), ?_, .bracketed first last inside⟩
    have openingOther : opening.kind ≠ .identifier := by simp [first]
    have closingOther : closing.kind ≠ .identifier := by simp [last]
    rw [List.cons_append, List.append_assoc, Token.replace_other x _ _ openingOther,
      List.singleton_append, eq, Token.replace_other x _ _ closingOther]
    simp

theorem derives_replace_whole (x : String) {valueTokens : List Token} {value : Tree}
    (given : Derives .expression valueTokens value) {phrase : Phrase} {xs : List Token}
    {tree : Tree} (derives : Derives phrase xs tree) :
    Derives phrase (Token.replace x valueTokens false xs) (Tree.replace x value tree) := by
  obtain ⟨ys, eq, replaced⟩ := derives_replace x given derives [] (by simp [Kind.next])
  rw [List.append_nil, Token.replace, List.append_nil] at eq
  rwa [eq]

theorem statement_replace (x : String) {valueTokens : List Token} {value : Tree}
    (given : Derives .expression valueTokens value) {xs : List Token} {tree : Tree}
    (statement : Statement xs tree) :
    Statement (Token.replace x valueTokens true xs) (Tree.replace x value tree) := by
  cases statement with
  | expression derives =>
    have replaced := derives_replace_whole x given derives
    have inner := derives_inner derives
    refine .expression ?_
    cases xs with
    | nil => exact replaced
    | cons token rest =>
      have noEqual : Kind.next rest ≠ .equal := by
        cases rest with
        | nil => simp [Kind.next]
        | cons second rest => exact (inner second (by simp)).2
      rwa [Token.replace_first x _ token noEqual]
  | @assignment lexeme equal xs tree sign derives =>
    have equalOther : equal.kind ≠ .identifier := by simp [sign]
    rw [Token.replace_target x _ _ (by simpa [Kind.next] using sign),
      Token.replace_other x _ _ equalOther]
    exact .assignment sign (derives_replace_whole x given derives)

end Grammar
end Reckoner
