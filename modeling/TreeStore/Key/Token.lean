/-!
The file-name token of a key. A key is any text; its token holds neither a separator nor NUL, so
it can stand as one path component. `token` marks each of the three special characters, and
`ofToken` reads a token back in one pass from left to right. Main statement: `ofToken_token`.
-/
namespace TreeStore.Key

def escapeChar : Char → List Char
  | '=' => ['=', '3', 'D']
  | '/' => ['=', '2', 'F']
  | '\x00' => ['=', '0', '0']
  | c => [c]

def escapeChars : List Char → List Char
  | [] => []
  | c :: rest => escapeChar c ++ escapeChars rest

/-- A decoded mark never joins the characters after it, and a mark that begins none of the three
written forms stands for itself. -/
def unescapeChars : List Char → List Char
  | [] => []
  | '=' :: '3' :: 'D' :: rest => '=' :: unescapeChars rest
  | '=' :: '2' :: 'F' :: rest => '/' :: unescapeChars rest
  | '=' :: '0' :: '0' :: rest => '\x00' :: unescapeChars rest
  | c :: rest => c :: unescapeChars rest

def token (key : String) : String := String.ofList (escapeChars key.toList)

def ofToken (text : String) : String := String.ofList (unescapeChars text.toList)

@[simp] theorem escapeChars_append (s t : List Char) :
    escapeChars (s ++ t) = escapeChars s ++ escapeChars t := by
  induction s with
  | nil => rfl
  | cons c rest ih => simp [escapeChars, ih]

theorem unescapeChars_cons_of_ne {c : Char} (h : c ≠ '=') (rest : List Char) :
    unescapeChars (c :: rest) = c :: unescapeChars rest := by
  rw [unescapeChars] <;> simp_all

theorem escapeChar_cases (c : Char) :
    (c = '=' ∧ escapeChar c = ['=', '3', 'D']) ∨ (c = '/' ∧ escapeChar c = ['=', '2', 'F']) ∨
      (c = '\x00' ∧ escapeChar c = ['=', '0', '0']) ∨
      (c ≠ '=' ∧ c ≠ '/' ∧ c ≠ '\x00' ∧ escapeChar c = [c]) := by
  unfold escapeChar
  split <;> simp_all

theorem unescapeChars_escapeChar_append (c : Char) (rest : List Char) :
    unescapeChars (escapeChar c ++ rest) = c :: unescapeChars rest := by
  rcases escapeChar_cases c with ⟨rfl, h⟩ | ⟨rfl, h⟩ | ⟨rfl, h⟩ | ⟨mark, -, -, h⟩ <;> rw [h]
  · simp [unescapeChars]
  · simp [unescapeChars]
  · simp [unescapeChars]
  · exact unescapeChars_cons_of_ne mark rest

theorem unescapeChars_escapeChars (s : List Char) : unescapeChars (escapeChars s) = s := by
  induction s with
  | nil => rfl
  | cons c rest ih => rw [escapeChars, unescapeChars_escapeChar_append, ih]

@[simp] theorem toList_token (key : String) : (token key).toList = escapeChars key.toList :=
  String.toList_ofList

@[simp] theorem ofToken_token (key : String) : ofToken (token key) = key := by
  simp [ofToken, unescapeChars_escapeChars]

theorem token_injective {a b : String} (h : token a = token b) : a = b := by
  rw [← ofToken_token a, h, ofToken_token]

end TreeStore.Key
