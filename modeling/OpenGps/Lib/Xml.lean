import Mathlib.Data.List.Basic

/-!
# XML documents of data

Elements that have either a text or elements, with attributes, as a tree. A document is read in
three steps: the characters are cut into tags and texts, a tag is read as its name and attributes,
and the tags are matched. Entities, comments and mixed content are not read.

    text ──scan──▶ pieces ──token──▶ tokens ──build──▶ tree

What `Xml.chars` writes for a tree of plain texts is read back as this tree, so a document stands for
one tree at most.
-/

namespace OpenGps.Lib

/-- An element with a text, or with elements. -/
inductive Xml where
  | leaf (name : String) (attrs : List (String × String)) (text : String)
  | node (name : String) (attrs : List (String × String)) (children : List Xml)

namespace Xml

inductive Token where
  | start (name : String) (attrs : List (String × String))
  | stop (name : String)
  | text (s : String)

/-! ## Writing -/

def attributeChars (a : String × String) : List Char :=
  ' ' :: (a.1.toList ++ '=' :: '"' :: (a.2.toList ++ ['"']))

inductive Piece where
  | tag (cs : List Char)
  | text (cs : List Char)

def Piece.chars : Piece → List Char
  | .tag cs => '<' :: (cs ++ ['>'])
  | .text cs => cs

def Token.piece : Token → Piece
  | .start name attrs => .tag (name.toList ++ attrs.flatMap attributeChars)
  | .stop name => .tag ('/' :: name.toList)
  | .text s => .text s.toList

mutual

def tokens : Xml → List Token
  | .leaf name attrs text => [.start name attrs, .text text, .stop name]
  | .node name attrs children => .start name attrs :: (tokensAll children ++ [.stop name])

def tokensAll : List Xml → List Token
  | [] => []
  | x :: xs => tokens x ++ tokensAll xs

end

def chars (x : Xml) : List Char := (tokens x).flatMap fun t => t.piece.chars

theorem tokensAll_eq (xs : List Xml) : tokensAll xs = xs.flatMap tokens := by
  induction xs with
  | nil => rw [tokensAll, List.flatMap_nil]
  | cons x xs ih => rw [tokensAll, ih, List.flatMap_cons]

/-! ## Reading -/

mutual

/-- Outside of a tag, with the characters since the last one. -/
def scanText (acc : List Char) : List Char → Option (List Piece)
  | [] => some (if acc = [] then [] else [.text acc])
  | c :: cs =>
    if c = '<' then
      (scanTag [] cs).map fun pieces => if acc = [] then pieces else .text acc :: pieces
    else scanText (acc ++ [c]) cs

/-- Within a tag. -/
def scanTag (acc : List Char) : List Char → Option (List Piece)
  | [] => none
  | c :: cs =>
    if c = '>' then (scanText [] cs).map (.tag acc :: ·)
    else if c = '<' then none
    else scanTag (acc ++ [c]) cs

end

mutual

def attributes : List Char → Option (List (String × String))
  | [] => some []
  | c :: cs => if c = ' ' then attributeName [] cs else none

def attributeName (acc : List Char) : List Char → Option (List (String × String))
  | [] => none
  | c :: cs => if c = '=' then openQuote acc cs else attributeName (acc ++ [c]) cs

def openQuote (name : List Char) : List Char → Option (List (String × String))
  | [] => none
  | c :: cs => if c = '"' then attributeValue name [] cs else none

def attributeValue (name acc : List Char) : List Char → Option (List (String × String))
  | [] => none
  | c :: cs =>
    if c = '"' then (attributes cs).map ((String.ofList name, String.ofList acc) :: ·)
    else attributeValue name (acc ++ [c]) cs

end

def Piece.token : Piece → Option Token
  | .text cs => if '&' ∈ cs then none else some (.text (String.ofList cs))
  | .tag cs =>
    if '&' ∈ cs then none
    else
      match cs with
      | '/' :: name => some (.stop (String.ofList name))
      | _ => (attributes (cs.dropWhile (· ≠ ' '))).map fun attrs =>
          .start (String.ofList (cs.takeWhile (· ≠ ' '))) attrs

/-- An element that is open, and what came before it. -/
structure Frame where
  name : String
  attrs : List (String × String)
  before : List Xml

/-- Matches the tags; `current` are the children so far. -/
def build : List Token → List Frame → List Xml → Option (List Xml)
  | [], [], current => some current
  | .start name attrs :: ts, stack, current => build ts (⟨name, attrs, current⟩ :: stack) []
  | .text s :: .stop name :: ts, frame :: stack, [] =>
    if frame.name = name then
      build ts stack (frame.before ++ [.leaf frame.name frame.attrs s])
    else none
  | .stop name :: ts, frame :: stack, current =>
    if frame.name = name then
      build ts stack (frame.before ++ [.node frame.name frame.attrs current])
    else none
  | _, _, _ => none

/-- The declaration at the start is left out. -/
def withoutDeclaration : List Piece → List Piece
  | .tag ('?' :: cs) :: pieces => if cs.getLast? = some '?' then pieces else .tag ('?' :: cs) :: pieces
  | pieces => pieces

/-- A document has one root. -/
def parse (document : List Char) : Option Xml := do
  let pieces ← scanText [] document
  let ts ← (withoutDeclaration pieces).mapM Piece.token
  match ← build ts [] [] with
  | [root] => some root
  | _ => none

/-! ## Plain texts -/

/-- No character of the text is special. -/
def Plain (cs : List Char) : Prop := ∀ c ∈ cs, c ∉ ['<', '>', '&', '"']

-- By the list: the search over all characters that is found otherwise is too deep to run.
instance (cs : List Char) : Decidable (Plain cs) := List.decidableBAll _ cs

/-- A name, of an element or of an attribute. -/
def PlainName (name : String) : Prop :=
  Plain name.toList ∧ name ≠ "" ∧ ∀ c ∈ name.toList, c ∉ [' ', '=', '/', '?']

instance (name : String) : Decidable (PlainName name) :=
  have : Decidable (∀ c ∈ name.toList, c ∉ [' ', '=', '/', '?']) := List.decidableBAll _ _
  inferInstanceAs (Decidable (_ ∧ _))

def Token.Plain : Token → Prop
  | .start name attrs => PlainName name ∧ ∀ a ∈ attrs, PlainName a.1 ∧ Xml.Plain a.2.toList
  | .stop name => PlainName name
  | .text s => Xml.Plain s.toList ∧ s ≠ ""

instance (t : Token) : Decidable t.Plain :=
  match t with
  | .start _ _ => inferInstanceAs (Decidable (_ ∧ _))
  | .stop _ => inferInstanceAs (Decidable (PlainName _))
  | .text _ => inferInstanceAs (Decidable (_ ∧ _))

/-- The names and the texts of the tree are plain, and no text is empty. -/
def IsPlain (x : Xml) : Prop := ∀ t ∈ tokens x, t.Plain

theorem isPlain_leaf {name text : String} {attrs : List (String × String)}
    (hstart : (Token.start name attrs).Plain) (htext : (Token.text text).Plain) :
    (leaf name attrs text).IsPlain := by
  intro t ht
  rw [tokens] at ht
  simp only [List.mem_cons, List.not_mem_nil, or_false] at ht
  obtain rfl | rfl | rfl := ht
  · exact hstart
  · exact htext
  · exact hstart.1

theorem isPlain_node {name : String} {attrs : List (String × String)} {children : List Xml}
    (hstart : (Token.start name attrs).Plain) (hchildren : ∀ x ∈ children, x.IsPlain) :
    (node name attrs children).IsPlain := by
  intro t ht
  rw [tokens, tokensAll_eq, List.mem_cons, List.mem_append, List.mem_singleton] at ht
  obtain rfl | ht | rfl := ht
  · exact hstart
  · obtain ⟨x, hx, ht⟩ := List.mem_flatMap.mp ht
    exact hchildren x hx t ht
  · exact hstart.1

/-! ## Pieces -/

theorem scanText_append {s : List Char} (h : ∀ c ∈ s, c ≠ '<') (acc rest : List Char) :
    scanText acc (s ++ rest) = scanText (acc ++ s) rest := by
  induction s generalizing acc with
  | nil => rw [List.nil_append, List.append_nil]
  | cons c s ih =>
    obtain ⟨hc, hs⟩ := List.forall_mem_cons.mp h
    rw [List.cons_append, scanText, if_neg hc, ih hs, List.append_assoc]
    rfl

theorem scanTag_append {s : List Char} (h : ∀ c ∈ s, c ≠ '<' ∧ c ≠ '>') (acc rest : List Char) :
    scanTag acc (s ++ '>' :: rest) = (scanText [] rest).map (.tag (acc ++ s) :: ·) := by
  induction s generalizing acc with
  | nil => rw [List.nil_append, scanTag, if_pos rfl, List.append_nil]
  | cons c s ih =>
    obtain ⟨⟨hopen, hclose⟩, hs⟩ := List.forall_mem_cons.mp h
    rw [List.cons_append, scanTag, if_neg hclose, if_neg hopen, ih hs, List.append_assoc]
    rfl

theorem scanText_tag {body : List Char} (h : ∀ c ∈ body, c ≠ '<' ∧ c ≠ '>') (acc rest : List Char) :
    scanText acc ((Piece.tag body).chars ++ rest) = (scanText [] rest).map fun pieces =>
      if acc = [] then .tag body :: pieces else .text acc :: .tag body :: pieces := by
  have hchars : (Piece.tag body).chars ++ rest = '<' :: (body ++ '>' :: rest) := by
    simp [Piece.chars]
  rw [hchars, scanText, if_pos rfl, scanTag_append h, List.nil_append, Option.map_map]
  rfl

/-! ## Attributes -/

theorem attributeName_append {name : List Char} (h : ∀ c ∈ name, c ≠ '=') (acc rest : List Char) :
    attributeName acc (name ++ '=' :: rest) = openQuote (acc ++ name) rest := by
  induction name generalizing acc with
  | nil => rw [List.nil_append, attributeName, if_pos rfl, List.append_nil]
  | cons c name ih =>
    obtain ⟨hc, hname⟩ := List.forall_mem_cons.mp h
    rw [List.cons_append, attributeName, if_neg hc, ih hname, List.append_assoc]
    rfl

theorem attributeValue_append {value : List Char} (h : ∀ c ∈ value, c ≠ '"')
    (name acc rest : List Char) :
    attributeValue name acc (value ++ '"' :: rest) =
      (attributes rest).map ((String.ofList name, String.ofList (acc ++ value)) :: ·) := by
  induction value generalizing acc with
  | nil => rw [List.nil_append, attributeValue, if_pos rfl, List.append_nil]
  | cons c value ih =>
    obtain ⟨hc, hvalue⟩ := List.forall_mem_cons.mp h
    rw [List.cons_append, attributeValue, if_neg hc, ih hvalue, List.append_assoc]
    rfl

theorem attributes_chars {attrs : List (String × String)}
    (h : ∀ a ∈ attrs, PlainName a.1 ∧ Xml.Plain a.2.toList) :
    attributes (attrs.flatMap attributeChars) = some attrs := by
  induction attrs with
  | nil => rw [List.flatMap_nil, attributes]
  | cons a attrs ih =>
    obtain ⟨⟨hname, hvalue⟩, hattrs⟩ := List.forall_mem_cons.mp h
    have hequals : ∀ c ∈ a.1.toList, c ≠ '=' := fun c hc heq => hname.2.2 c hc (by simp [heq])
    have hquote : ∀ c ∈ a.2.toList, c ≠ '"' := fun c hc heq => hvalue c hc (by simp [heq])
    have hchars : (a :: attrs).flatMap attributeChars =
        ' ' :: (a.1.toList ++ '=' :: '"' :: (a.2.toList ++ '"' :: attrs.flatMap attributeChars)) := by
      simp [attributeChars]
    rw [hchars, attributes, if_pos rfl, attributeName_append hequals, openQuote, if_pos rfl,
      attributeValue_append hquote, ih hattrs]
    simp

/-! ## Tokens -/

theorem plain_ne {cs : List Char} (h : Plain cs) {d : Char} (hd : d ∈ ['<', '>', '&', '"']) :
    d ∉ cs := fun hmem => h d hmem hd

/-- The characters between the brackets of a start tag. -/
theorem plain_start {name : String} {attrs : List (String × String)}
    (h : (Token.start name attrs).Plain) :
    ∀ c ∈ name.toList ++ attrs.flatMap attributeChars, c ∉ ['<', '>', '&'] := by
  intro c hc
  have hsub : ∀ {cs : List Char}, Plain cs → c ∈ cs → c ∉ ['<', '>', '&'] := by
    intro cs hcs hmem hspecial
    refine hcs c hmem ?_
    simp only [List.mem_cons, List.not_mem_nil, or_false] at hspecial ⊢
    exact hspecial.imp_right fun h => h.imp_right .inl
  obtain hc | hc := List.mem_append.mp hc
  · exact hsub h.1.1 hc
  · obtain ⟨a, ha, hc⟩ := List.mem_flatMap.mp hc
    have ⟨hname, hvalue⟩ := h.2 a ha
    simp only [attributeChars, List.mem_cons, List.mem_append, List.not_mem_nil, or_false] at hc
    obtain rfl | hc | rfl | rfl | hc | rfl := hc
    · decide
    · exact hsub hname.1 hc
    · decide
    · decide
    · exact hsub hvalue hc
    · decide

theorem Token.token_piece {t : Token} (h : t.Plain) : t.piece.token = some t := by
  cases t with
  | start name attrs =>
    have hamp : '&' ∉ name.toList ++ attrs.flatMap attributeChars :=
      fun hc => plain_start h _ hc (by decide)
    have hspace : ∀ c ∈ name.toList, decide (c ≠ ' ') = true :=
      fun c hc => decide_eq_true fun heq => h.1.2.2 c hc (by simp [heq])
    -- The attributes start at the first space.
    have htake : (attrs.flatMap attributeChars).takeWhile (· ≠ ' ') = [] := by
      cases attrs <;> rfl
    have hdrop : (attrs.flatMap attributeChars).dropWhile (· ≠ ' ') =
        attrs.flatMap attributeChars := by
      cases attrs <;> rfl
    rw [Token.piece, Piece.token, if_neg hamp]
    · rw [List.dropWhile_append_of_pos hspace, List.takeWhile_append_of_pos hspace, htake, hdrop,
        attributes_chars h.2, List.append_nil, String.ofList_toList]
      rfl
    · -- A name does not start with a slash.
      intro cs hslash
      obtain ⟨c, name', hname⟩ := List.exists_cons_of_ne_nil
        (mt String.toList_eq_nil_iff.mp h.1.2.1)
      rw [hname, List.cons_append, List.cons.injEq] at hslash
      refine absurd ?_ (h.1.2.2 c (hname ▸ List.mem_cons_self))
      simp [hslash.1]
  | stop name =>
    have hamp : '&' ∉ '/' :: name.toList := by
      rw [List.mem_cons, not_or]
      exact ⟨by decide, plain_ne h.1 (by decide)⟩
    rw [Token.piece, Piece.token, if_neg hamp, String.ofList_toList]
  | text s =>
    rw [Token.piece, Piece.token, if_neg (plain_ne h.1 (by decide)), String.ofList_toList]

theorem mapM_token_piece {ts : List Token} (h : ∀ t ∈ ts, t.Plain) :
    (ts.map Token.piece).mapM Piece.token = some ts := by
  induction ts with
  | nil => rfl
  | cons t ts ih =>
    obtain ⟨ht, hts⟩ := List.forall_mem_cons.mp h
    rw [List.map_cons, List.mapM_cons, Token.token_piece ht, ih hts]
    rfl

/-! ## Trees -/

theorem scanText_piece_tag {body : List Char} (h : ∀ c ∈ body, c ≠ '<' ∧ c ≠ '>')
    (rest : List Char) :
    scanText [] ((Piece.tag body).chars ++ rest) = (scanText [] rest).map (.tag body :: ·) := by
  rw [scanText_tag h]
  simp

theorem scanText_start {name : String} {attrs : List (String × String)}
    (h : (Token.start name attrs).Plain) (rest : List Char) :
    scanText [] ((Token.start name attrs).piece.chars ++ rest) =
      (scanText [] rest).map ((Token.start name attrs).piece :: ·) := by
  refine scanText_piece_tag (fun c hc => ?_) rest
  have hplain := plain_start h c hc
  simp only [List.mem_cons, List.not_mem_nil, or_false, not_or] at hplain
  exact ⟨hplain.1, hplain.2.1⟩

theorem plain_stop {name : String} (h : (Token.stop name).Plain) :
    ∀ c ∈ '/' :: name.toList, c ≠ '<' ∧ c ≠ '>' := by
  refine List.forall_mem_cons.mpr ⟨by decide, fun c hc => ?_⟩
  have hplain := h.1 c hc
  simp only [List.mem_cons, List.not_mem_nil, or_false, not_or] at hplain
  exact ⟨hplain.1, hplain.2.1⟩

theorem scanText_text {s name : String} (hs : (Token.text s).Plain) (hname : (Token.stop name).Plain)
    (rest : List Char) :
    scanText [] ((Token.text s).piece.chars ++ ((Token.stop name).piece.chars ++ rest)) =
      (scanText [] rest).map fun pieces =>
        (Token.text s).piece :: (Token.stop name).piece :: pieces := by
  have hopen : ∀ c ∈ s.toList, c ≠ '<' := fun c hc heq => hs.1 c hc (by simp [heq])
  have hne : s.toList ≠ [] := mt String.toList_eq_nil_iff.mp hs.2
  show scanText [] (s.toList ++ ((Piece.tag ('/' :: name.toList)).chars ++ rest)) = _
  rw [scanText_append hopen, List.nil_append, scanText_tag (plain_stop hname)]
  simp only [if_neg hne]
  rfl

mutual

theorem scanText_tokens : ∀ (x : Xml) (_ : x.IsPlain) (rest : List Char),
    scanText [] (x.chars ++ rest) = (scanText [] rest).map ((tokens x).map Token.piece ++ ·)
  | .leaf name attrs text, h, rest => by
    have hstart : (Token.start name attrs).Plain := h _ (by simp [tokens])
    have htext : (Token.text text).Plain := h _ (by simp [tokens])
    have hstop : (Token.stop name).Plain := h _ (by simp [tokens])
    have hchars : chars (.leaf name attrs text) ++ rest = (Token.start name attrs).piece.chars ++
        ((Token.text text).piece.chars ++ ((Token.stop name).piece.chars ++ rest)) := by
      simp [chars, tokens]
    rw [hchars, scanText_start hstart, scanText_text htext hstop, Option.map_map]
    rfl
  | .node name attrs children, h, rest => by
    have hstart : (Token.start name attrs).Plain := h _ (by simp [tokens])
    have hstop : (Token.stop name).Plain := h _ (by simp [tokens])
    have hchildren : ∀ t ∈ tokensAll children, t.Plain := fun t ht => h t (by simp [tokens, ht])
    have hchars : chars (.node name attrs children) ++ rest =
        (Token.start name attrs).piece.chars ++
          ((tokensAll children).flatMap (fun t => t.piece.chars) ++
            ((Token.stop name).piece.chars ++ rest)) := by
      simp [chars, tokens]
    rw [hchars, scanText_start hstart, scanText_tokensAll children hchildren,
      show (Token.stop name).piece = .tag ('/' :: name.toList) from rfl,
      scanText_piece_tag (plain_stop hstop), Option.map_map, Option.map_map]
    congr 1
    funext pieces
    simp [tokens, Token.piece]

theorem scanText_tokensAll : ∀ (xs : List Xml) (_ : ∀ t ∈ tokensAll xs, t.Plain) (rest : List Char),
    scanText [] ((tokensAll xs).flatMap (fun t => t.piece.chars) ++ rest) =
      (scanText [] rest).map ((tokensAll xs).map Token.piece ++ ·)
  | [], _, rest => by simp [tokensAll]
  | x :: xs, h, rest => by
    have hx : x.IsPlain := fun t ht => h t (by simp [tokensAll, ht])
    have hxs : ∀ t ∈ tokensAll xs, t.Plain := fun t ht => h t (by simp [tokensAll, ht])
    have hchars : (tokensAll (x :: xs)).flatMap (fun t => t.piece.chars) ++ rest =
        x.chars ++ ((tokensAll xs).flatMap (fun t => t.piece.chars) ++ rest) := by
      simp [chars, tokensAll]
    rw [hchars, scanText_tokens x hx, scanText_tokensAll xs hxs, Option.map_map]
    congr 1
    funext pieces
    simp [tokensAll]

end

mutual

theorem build_tokens : ∀ (x : Xml) (ts : List Token) (stack : List Frame) (current : List Xml),
    build (tokens x ++ ts) stack current = build ts stack (current ++ [x])
  | .leaf name attrs text, ts, stack, current => by simp [tokens, build]
  | .node name attrs children, ts, stack, current => by
    rw [tokens, List.cons_append, List.append_assoc, build, build_tokensAll children]
    simp [build]

theorem build_tokensAll : ∀ (xs : List Xml) (ts : List Token) (stack : List Frame)
    (current : List Xml), build (tokensAll xs ++ ts) stack current = build ts stack (current ++ xs)
  | [], ts, stack, current => by rw [tokensAll, List.nil_append, List.append_nil]
  | x :: xs, ts, stack, current => by
    rw [tokensAll, List.append_assoc, build_tokens x, build_tokensAll xs, List.append_assoc]
    rfl

end

/-- A plain tree is read back from the document that is written for it. -/
theorem parse_chars {x : Xml} (h : x.IsPlain) {declaration : List Char}
    (hdeclaration : ∀ c ∈ declaration, c ≠ '<' ∧ c ≠ '>') :
    parse ((Piece.tag ('?' :: (declaration ++ ['?']))).chars ++ x.chars) = some x := by
  have hbody : ∀ c ∈ '?' :: (declaration ++ ['?']), c ≠ '<' ∧ c ≠ '>' := by
    refine List.forall_mem_cons.mpr ⟨by decide, List.forall_mem_append.mpr ⟨hdeclaration, ?_⟩⟩
    exact List.forall_mem_singleton.mpr (by decide)
  have hscan := scanText_tokens x h []
  rw [List.append_nil, scanText, if_pos rfl, Option.map_some, List.append_nil] at hscan
  have hbuild := build_tokens x [] [] []
  rw [List.append_nil, build] at hbuild
  unfold parse
  rw [scanText_piece_tag hbody, hscan]
  show (((withoutDeclaration _).mapM Piece.token).bind _) = _
  rw [withoutDeclaration, if_pos (List.getLast?_concat)]
  rw [mapM_token_piece h]
  show (build (tokens x) [] []).bind _ = _
  rw [hbuild]
  rfl

end Xml

end OpenGps.Lib
