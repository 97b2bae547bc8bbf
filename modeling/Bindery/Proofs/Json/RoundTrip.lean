/-
# What is written as JSON is read back

A value has two layouts, and both are layouts of the same tokens (`Json.tokens`):

| text | tokens |
| --- | --- |
| brackets, braces, colons, commas, `null`, `true`, `false` | themselves |
| a text between quotes, escaped | that text |
| line ends and blanks between them | none |

None of these goes on behind its last character, so what a text spells does not depend on what
follows it (`Spells`). That does not hold of numbers, which are left out here (`Textual`); nothing
that is stored has any.

The reader takes the tokens of a value from any state in which a value may begin to the state in
which it is done (`reaches_tokens`). So a value is read back from either layout (`read?_line`,
`read?_page`).
-/

import Bindery.Json.Printer
import Bindery.Json.Reader

namespace Bindery

/-! ### Characters in quotes -/

namespace Text

theorem hexValue?_hexDigit : ∀ n < 16, hexValue? (hexDigit n) = some n := by decide

theorem toList_hexPadded_four (n : Nat) :
    (hexPadded 4 n).toList = [hexDigit (n / 4096 % 16), hexDigit (n / 256 % 16),
      hexDigit (n / 16 % 16), hexDigit (n % 16)] := by
  rw [hexPadded, String.toList_ofList]
  show [hexDigit (n / 4096 % 16), hexDigit (n / 256 % 16), hexDigit (n / 16 % 16),
    hexDigit (n / 1 % 16)] = _
  rw [Nat.div_one]

/-- Four digits hold any number below 65536. -/
theorem readHex?_hexPadded {n : Nat} (h : n < 65536) :
    readHex? (hexPadded 4 n).toList = some n := by
  have hdigit : ∀ k, hexValue? (hexDigit (k % 16)) = some (k % 16) := fun k =>
    hexValue?_hexDigit (k % 16) (Nat.mod_lt k (by decide))
  rw [toList_hexPadded_four, readHex?]
  simp only [List.foldlM_cons, List.foldlM_nil, hdigit, Option.map_some, Option.bind_eq_bind,
    Option.bind_some, Option.pure_def, Option.some.injEq]
  omega

end Text

namespace Json

open Text

/-- A piece of a text gives a character: as itself, or as a unit that is no surrogate. -/
inductive Piece.Gives : Piece → Char → Prop
  | char (c : Char) : Gives (.char c) c
  | unit {c : Char} (h : c.toNat < 0x20) : Gives (.unit c.toNat) c

/-- Behind an escaped character the text goes on. -/
theorem scanText_escapeChar (c : Char) (r : List Char) :
    ∃ p, Piece.Gives p c ∧ scanText (escapeChar c ++ r) = consPiece p (scanText r) := by
  unfold escapeChar
  split
  case h_8 hquote hslash hback hfeed hline hreturn htab =>
    split
    · rename_i hcontrol
      refine ⟨.unit c.toNat, .unit hcontrol, ?_⟩
      have hread := readHex?_hexPadded (show c.toNat < 65536 by omega)
      rw [toList_hexPadded_four] at hread ⊢
      simp only [List.cons_append, List.nil_append, scanText, hread]
    · rename_i hplain
      refine ⟨.char c, .char c, ?_⟩
      rw [List.singleton_append, scanText, if_neg hplain]
      · exact hquote
      · exact fun _ _ _ _ _ h _ => hslash h
      · exact fun _ _ h _ => hslash h
  all_goals exact ⟨.char _, .char _, rfl⟩

theorem characters?_cons {p : Piece} {c : Char} (h : p.Gives c) (ps : List Piece) :
    characters? (p :: ps) = (characters? ps).map (c :: ·) := by
  cases h with
  | char => rfl
  | unit h =>
    have hleading : ¬ (0xD800 ≤ c.toNat ∧ c.toNat < 0xE000) := by omega
    have hchar : Char.ofNat c.toNat = c := Char.ofNat_toNat c
    rcases ps with _ | ⟨_ | m, ps⟩
    · simp only [characters?, if_neg hleading, hchar]
    · simp only [characters?, if_neg hleading, hchar]
    · have hpair : ¬ (0xD800 ≤ c.toNat ∧ c.toNat < 0xDC00 ∧ 0xDC00 ≤ m ∧ m < 0xE000) := by omega
      rw [characters?, if_neg hpair, if_neg hleading, hchar]

/-- A text is scanned up to its closing quote, and has the characters that were escaped. -/
theorem scanText_flatMap_escapeChar (cs r : List Char) :
    ∃ ps, scanText (cs.flatMap escapeChar ++ '"' :: r) = some (ps, r) ∧
      characters? ps = some cs := by
  induction cs with
  | nil => exact ⟨[], rfl, rfl⟩
  | cons c cs ih =>
    obtain ⟨ps, hscan, hcharacters⟩ := ih
    obtain ⟨p, hgives, hstep⟩ := scanText_escapeChar c (cs.flatMap escapeChar ++ '"' :: r)
    refine ⟨p :: ps, ?_, ?_⟩
    · rw [List.flatMap_cons, List.append_assoc, hstep, hscan]
      rfl
    · rw [characters?_cons hgives, hcharacters]
      rfl

/-! ### Tokens of a text -/

/-- A text is made of tokens, whatever follows it. -/
def Spells (cs : List Char) (ts : List Token) : Prop :=
  ∀ r, tokenize (cs ++ r) = (tokenize r).map (ts ++ ·)

theorem tokenize_of_scan {c : Char} {cs r : List Char} {t : Token} (hgap : isGap c = false)
    (h : scan (c :: cs) = some (t, r)) : tokenize (c :: cs) = (tokenize r).map (t :: ·) := by
  rw [tokenize, if_neg (by simp [hgap])]
  split
  · rename_i t' r' h'
    obtain ⟨rfl, rfl⟩ := Prod.mk.inj (Option.some.inj (h.symm.trans h'))
    rfl
  · rename_i h'
    exact absurd (h.symm.trans h') (Option.some_ne_none _)

theorem tokenize_gap {c : Char} (h : isGap c = true) (r : List Char) :
    tokenize (c :: r) = tokenize r := by
  rw [tokenize, if_pos h]

namespace Spells

theorem nil : Spells [] [] := fun r => by
  rw [List.nil_append]
  exact Option.map_id'.symm

theorem append {cs cs' : List Char} {ts ts' : List Token} (h : Spells cs ts)
    (h' : Spells cs' ts') : Spells (cs ++ cs') (ts ++ ts') := fun r => by
  rw [List.append_assoc, h, h', Option.map_map]
  simp only [Function.comp_def, List.append_assoc]

/-- A token at the start of a text. -/
theorem cons {c : Char} {cs : List Char} {t : Token} {ts : List Token}
    (hscan : ∀ r, scan (c :: r) = some (t, r)) (hgap : isGap c = false) (h : Spells cs ts) :
    Spells (c :: cs) (t :: ts) := fun r => by
  rw [List.cons_append, tokenize_of_scan hgap (hscan _), h, Option.map_map]
  rfl

/-- A blank at the start of a text. -/
theorem gap {c : Char} {cs : List Char} {ts : List Token} (hgap : isGap c = true)
    (h : Spells cs ts) : Spells (c :: cs) ts := fun r => by
  rw [List.cons_append, tokenize_gap hgap, h]

/-- The tokens of a text are found. -/
theorem tokenize_eq {cs : List Char} {ts : List Token} (h : Spells cs ts) :
    tokenize cs = some ts := by
  have hall := h []
  rw [List.append_nil] at hall
  rw [hall, tokenize, Option.map_some, List.append_nil]

end Spells

theorem spells_word {c : Char} {cs : List Char} {t : Token}
    (hscan : ∀ r, scan (c :: (cs ++ r)) = some (t, r)) (hgap : isGap c = false) :
    Spells (c :: cs) [t] := fun r => by
  rw [List.cons_append, tokenize_of_scan hgap (hscan r)]
  rfl

theorem spells_quote (s : String) : Spells (quote s) [.text (some s)] := fun r => by
  obtain ⟨ps, hscan, hcharacters⟩ := scanText_flatMap_escapeChar s.toList r
  have htoken : scan ('"' :: (s.toList.flatMap escapeChar ++ '"' :: r)) =
      some (.text (some s), r) := by
    simp only [scan, hscan, Option.map_some, hcharacters, String.ofList_toList]
  rw [quote, List.cons_append, List.append_assoc, List.singleton_append,
    tokenize_of_scan rfl htoken]
  rfl

theorem spells_newline (depth : Nat) : Spells (newline depth) [] := by
  have hblanks : ∀ n, Spells (List.replicate n ' ') [] := by
    intro n
    induction n with
    | zero => exact .nil
    | succ n ih => exact .gap rfl ih
  exact .gap rfl (hblanks (2 * depth))

mutual

/-- The tokens of a value. -/
def tokens : Json → List Token
  | .null => [.null]
  | .bool b => [.bool b]
  | .number spelling => [.number spelling]
  | .text s => [.text s]
  | .array [] => [.openArray, .closeArray]
  | .array (j :: r) => .openArray :: (tokens j ++ itemTokens r ++ [.closeArray])
  | .object [] => [.openObject, .closeObject]
  | .object ((k, j) :: r) =>
    .openObject :: .text k :: .colon :: (tokens j ++ memberTokens r ++ [.closeObject])

/-- The tokens of further elements. -/
def itemTokens : List Json → List Token
  | [] => []
  | j :: r => .comma :: (tokens j ++ itemTokens r)

/-- The tokens of further members. -/
def memberTokens : List (Option String × Json) → List Token
  | [] => []
  | (k, j) :: r => .comma :: .text k :: .colon :: (tokens j ++ memberTokens r)

end

/-- A value without numbers, all of whose texts have characters. -/
def Textual (j : Json) : Prop := j.isSound (fun _ => false) = true

theorem spells_null : Spells "null".toList [.null] := spells_word (fun _ => rfl) rfl

theorem spells_bool (b : Bool) :
    Spells (if b then "true".toList else "false".toList) [.bool b] := by
  cases b with
  | false => exact spells_word (fun _ => rfl) rfl
  | true => exact spells_word (fun _ => rfl) rfl

theorem spells_quote? {s : Option String} (h : s.isSome) : Spells (quote? s) [.text s] := by
  obtain ⟨s, rfl⟩ := Option.isSome_iff_exists.1 h
  exact spells_quote s

theorem spells_member {key : Option String} {cs : List Char} {ts : List Token}
    (hkey : key.isSome) (h : Spells cs ts) :
    Spells (quote? key ++ ':' :: cs) (.text key :: .colon :: ts) :=
  (spells_quote? hkey).append (.cons (fun _ => rfl) rfl h)

theorem spells_closeArray : Spells [']'] [.closeArray] := .cons (fun _ => rfl) rfl .nil

theorem spells_closeObject : Spells ['}'] [.closeObject] := .cons (fun _ => rfl) rfl .nil

mutual

theorem spells_compact : ∀ j : Json, j.isSound (fun _ => false) = true →
    Spells (compact j) (tokens j)
  | .null, _ => spells_null
  | .bool b, _ => spells_bool b
  | .number _, h => absurd h nofun
  | .text _, h => spells_quote? h
  | .array [], _ => .cons (fun _ => rfl) rfl spells_closeArray
  | .array (j :: r), h => by
    obtain ⟨hj, hr⟩ := Bool.and_eq_true_iff.1 h
    have hitems := (spells_compact j hj).append (spells_compactItems r hr)
    exact .cons (fun _ => rfl) rfl (hitems.append spells_closeArray)
  | .object [], _ => .cons (fun _ => rfl) rfl spells_closeObject
  | .object ((k, j) :: r), h => by
    obtain ⟨hkj, hr⟩ := Bool.and_eq_true_iff.1 h
    obtain ⟨hk, hj⟩ := Bool.and_eq_true_iff.1 hkj
    have hmembers := (spells_member hk (spells_compact j hj)).append (spells_compactMembers r hr)
    exact .cons (fun _ => rfl) rfl (hmembers.append spells_closeObject)

theorem spells_compactItems : ∀ items : List Json, soundItems (fun _ => false) items = true →
    Spells (compactItems items) (itemTokens items)
  | [], _ => .nil
  | j :: r, h => by
    obtain ⟨hj, hr⟩ := Bool.and_eq_true_iff.1 h
    exact .cons (fun _ => rfl) rfl ((spells_compact j hj).append (spells_compactItems r hr))

theorem spells_compactMembers : ∀ members : List (Option String × Json),
    soundMembers (fun _ => false) members = true →
    Spells (compactMembers members) (memberTokens members)
  | [], _ => .nil
  | (k, j) :: r, h => by
    obtain ⟨hkj, hr⟩ := Bool.and_eq_true_iff.1 h
    obtain ⟨hk, hj⟩ := Bool.and_eq_true_iff.1 hkj
    have hmembers := (spells_member hk (spells_compact j hj)).append (spells_compactMembers r hr)
    exact .cons (fun _ => rfl) rfl hmembers

end

mutual

theorem spells_spread : ∀ (depth : Nat) (j : Json), j.isSound (fun _ => false) = true →
    Spells (spread depth j) (tokens j)
  | _, .null, _ => spells_null
  | _, .bool b, _ => spells_bool b
  | _, .number _, h => absurd h nofun
  | _, .text _, h => spells_quote? h
  | _, .array [], _ => .cons (fun _ => rfl) rfl spells_closeArray
  | depth, .array (j :: r), h => by
    obtain ⟨hj, hr⟩ := Bool.and_eq_true_iff.1 h
    have hfirst := (spells_newline (depth + 1)).append (spells_spread (depth + 1) j hj)
    have hitems := hfirst.append (spells_spreadItems (depth + 1) r hr)
    have hclosed := (hitems.append (spells_newline depth)).append spells_closeArray
    rw [List.append_nil] at hclosed
    exact .cons (fun _ => rfl) rfl hclosed
  | _, .object [], _ => .cons (fun _ => rfl) rfl spells_closeObject
  | depth, .object ((k, j) :: r), h => by
    obtain ⟨hkj, hr⟩ := Bool.and_eq_true_iff.1 h
    obtain ⟨hk, hj⟩ := Bool.and_eq_true_iff.1 hkj
    have hmember := spells_member hk (.gap (c := ' ') rfl (spells_spread (depth + 1) j hj))
    have hmembers := ((spells_newline (depth + 1)).append hmember).append
      (spells_spreadMembers (depth + 1) r hr)
    have hclosed := (hmembers.append (spells_newline depth)).append spells_closeObject
    rw [List.append_nil, ← List.append_assoc (newline (depth + 1))] at hclosed
    exact .cons (fun _ => rfl) rfl hclosed

theorem spells_spreadItems : ∀ (depth : Nat) (items : List Json),
    soundItems (fun _ => false) items = true →
    Spells (spreadItems depth items) (itemTokens items)
  | _, [], _ => .nil
  | depth, j :: r, h => by
    obtain ⟨hj, hr⟩ := Bool.and_eq_true_iff.1 h
    have hfirst := (spells_newline depth).append (spells_spread depth j hj)
    exact .cons (fun _ => rfl) rfl (hfirst.append (spells_spreadItems depth r hr))

theorem spells_spreadMembers : ∀ (depth : Nat) (members : List (Option String × Json)),
    soundMembers (fun _ => false) members = true →
    Spells (spreadMembers depth members) (memberTokens members)
  | _, [], _ => .nil
  | depth, (k, j) :: r, h => by
    obtain ⟨hkj, hr⟩ := Bool.and_eq_true_iff.1 h
    obtain ⟨hk, hj⟩ := Bool.and_eq_true_iff.1 hkj
    have hmember := spells_member hk (.gap (c := ' ') rfl (spells_spread depth j hj))
    have hmembers := ((spells_newline depth).append hmember).append
      (spells_spreadMembers depth r hr)
    rw [← List.append_assoc (newline depth)] at hmembers
    exact .cons (fun _ => rfl) rfl hmembers

end

/-! ### Reading along the tokens -/

/-- The reader comes from one state to another by taking tokens. -/
def Reaches (s : State) (ts : List Token) (s' : State) : Prop := ts.foldlM step? s = some s'

theorem Reaches.append {s s' s'' : State} {ts ts' : List Token} (h : Reaches s ts s')
    (h' : Reaches s' ts' s'') : Reaches s (ts ++ ts') s'' := by
  rw [Reaches, List.foldlM_append, show ts.foldlM step? s = some s' from h]
  exact h'

theorem Reaches.cons {s s' s'' : State} {t : Token} {ts : List Token} (h : step? s t = some s')
    (h' : Reaches s' ts s'') : Reaches s (t :: ts) s'' := by
  rw [Reaches, List.foldlM_cons, h]
  exact h'

/-- A first element is read like a further one. -/
theorem reaches_first {j : Json} {stack : List Frame} {s : State}
    (h : Reaches (.value (.array [] :: stack)) (tokens j) s) :
    Reaches (.items stack) (tokens j) s := by
  rcases j with _ | _ | _ | _ | (_ | _) | (_ | ⟨⟨_, _⟩, _⟩) <;> exact h

mutual

/-- Behind its tokens a value is done. Induction on the value; the stack is arbitrary, since inner
values are read with more containers open. -/
theorem reaches_tokens : ∀ (j : Json) (stack : List Frame),
    Reaches (.value stack) (tokens j) (.done j stack)
  | .null, _ => rfl
  | .bool _, _ => rfl
  | .number _, _ => rfl
  | .text _, _ => rfl
  | .array [], _ => rfl
  | .array (j :: r), stack => by
    have hfirst := reaches_first (reaches_tokens j (.array [] :: stack))
    refine .cons rfl ?_
    rw [List.append_assoc]
    exact hfirst.append (reaches_itemTokens r j [] stack)
  | .object [], _ => rfl
  | .object ((k, j) :: r), stack => by
    have hfirst := reaches_tokens j (.object [] k :: stack)
    refine .cons rfl (.cons rfl (.cons rfl ?_))
    rw [List.append_assoc]
    exact hfirst.append (reaches_memberTokens r k j [] stack)

theorem reaches_itemTokens : ∀ (r : List Json) (j : Json) (items : List Json)
    (stack : List Frame), Reaches (.done j (.array items :: stack))
      (itemTokens r ++ [.closeArray]) (.done (.array ((j :: items).reverse ++ r)) stack)
  | [], j, items, stack => by
    rw [List.append_nil]
    rfl
  | j' :: r, j, items, stack => by
    have hnext := reaches_tokens j' (.array (j :: items) :: stack)
    have hrest := reaches_itemTokens r j' (j :: items) stack
    rw [List.reverse_cons, List.append_assoc] at hrest
    rw [itemTokens, List.cons_append, List.append_assoc]
    exact .cons rfl (hnext.append hrest)

theorem reaches_memberTokens : ∀ (r : List (Option String × Json)) (k : Option String) (j : Json)
    (members : List (Option String × Json)) (stack : List Frame),
    Reaches (.done j (.object members k :: stack)) (memberTokens r ++ [.closeObject])
      (.done (.object (((k, j) :: members).reverse ++ r)) stack)
  | [], k, j, members, stack => by
    rw [List.append_nil]
    rfl
  | (k', j') :: r, k, j, members, stack => by
    have hnext := reaches_tokens j' (.object ((k, j) :: members) k' :: stack)
    have hrest := reaches_memberTokens r k' j' ((k, j) :: members) stack
    rw [List.reverse_cons, List.append_assoc] at hrest
    simp only [memberTokens, List.cons_append, List.append_assoc]
    exact .cons rfl (.cons rfl (.cons rfl (hnext.append hrest)))

end

theorem ofTokens?_tokens (j : Json) : ofTokens? (tokens j) = some j := by
  rw [ofTokens?, show (tokens j).foldlM step? (.value []) = some (.done j []) from
    reaches_tokens j []]
  rfl

/-- A text that spells a value is read as that value. -/
theorem Spells.read?_eq {j : Json} {cs : List Char} (h : Spells cs (tokens j)) :
    read? (String.ofList cs) = some j := by
  rw [read?, String.toList_ofList, ofChars?, h.tokenize_eq]
  exact ofTokens?_tokens j

/-- **A value on one line is read back.** -/
theorem read?_line {j : Json} (h : j.Textual) : read? j.line = some j :=
  (spells_compact j h).read?_eq

/-- **A value spread over lines is read back.** -/
theorem read?_page {j : Json} (h : j.Textual) : read? j.page = some j :=
  (spells_spread 0 j h).read?_eq

end Json
end Bindery
