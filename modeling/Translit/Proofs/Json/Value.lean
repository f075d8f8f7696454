import Translit.Json.Reader
import Translit.Proofs.Json.Token

/-!
# Written values

A value that is written reads back, whatever its strings, numerals and nesting. The reader is seen
here as one machine over the text: it takes a token off the head and passes to what must come next.

* `Reads` : from one place of the machine to another, over a part of a text;
* `reads_render` : over a value, from any place that a value may begin at;
* `read?_render` : a value that is written reads back.
-/

namespace Translit.Json

/-! ## Scanning -/

/-- A text falls into tokens, however many characters the scanner may take as long as these are
not fewer than the text has. -/
def Scans (cs : List Char) (ts : List Token) : Prop :=
  ∀ limit, cs.length ≤ limit → Token.ofTextWithin? limit cs = some ts

theorem scans_nil : Scans [] [] := by
  intro limit _
  unfold Token.ofTextWithin?
  rfl

theorem scans_cons {c : Char} {cs rest : List Char} {t : Token} {ts : List Token}
    (hblank : Token.isBlank c = false) (hle : rest.length ≤ cs.length)
    (htake : Token.take? (c :: cs) = some (t, rest)) (h : Scans rest ts) :
    Scans (c :: cs) (t :: ts) := by
  intro limit hlimit
  cases limit with
  | zero => cases hlimit
  | succ limit =>
    have hrest := h limit (Nat.le_trans hle (Nat.le_of_succ_le_succ hlimit))
    rw [Token.ofTextWithin?, hblank, if_neg Bool.false_ne_true, htake]
    simp only [Option.bind_eq_bind, Option.bind_some, hrest, Option.pure_def]

/-! ## The machine -/

/-- From a place `st`, the text `cs` is read up to `rest`, which leads to the place `st'`. -/
def Reads (st : Expected) (cs : List Char) (st' : Expected) (rest : List Char) : Prop :=
  ∃ ts, ts.foldlM Expected.next? st = some st' ∧ ∀ ts', Scans rest ts' → Scans cs (ts ++ ts')

theorem Reads.trans {st st' st'' : Expected} {cs ds es : List Char} (h : Reads st cs st' ds)
    (h' : Reads st' ds st'' es) : Reads st cs st'' es := by
  obtain ⟨ts, hfold, hscans⟩ := h
  obtain ⟨us, hfold', hscans'⟩ := h'
  refine ⟨ts ++ us, ?_, ?_⟩
  · rw [List.foldlM_append, hfold]
    exact hfold'
  · intro ts' hrest
    rw [List.append_assoc]
    exact hscans _ (hscans' _ hrest)

/-- One token further. -/
theorem Reads.token {st st' : Expected} {c : Char} {cs rest : List Char} {t : Token}
    (hblank : Token.isBlank c = false) (hle : rest.length ≤ cs.length)
    (htake : Token.take? (c :: cs) = some (t, rest)) (hnext : st.next? t = some st') :
    Reads st (c :: cs) st' rest := by
  refine ⟨[t], ?_, fun ts' h => scans_cons hblank hle htake h⟩
  rw [List.foldlM_cons, hnext]
  rfl

/-- One mark further. -/
theorem Reads.mark {st st' : Expected} {c : Char} {rest : List Char} {t : Token}
    (hblank : Token.isBlank c = false) (htake : Token.take? (c :: rest) = some (t, rest))
    (hnext : st.next? t = some st') : Reads st (c :: rest) st' rest :=
  .token hblank (Nat.le_refl _) htake hnext

/-- One literal further. -/
theorem Reads.literal {st st' : Expected} {c : Char} {cs rest : List Char} {t : Token}
    (hblank : Token.isBlank c = false) (htake : Token.take? (c :: cs ++ rest) = some (t, rest))
    (hnext : st.next? t = some st') : Reads st (c :: cs ++ rest) st' rest := by
  refine .token hblank ?_ htake hnext
  change rest.length ≤ (cs ++ rest).length
  rw [List.length_append]
  exact Nat.le_add_left _ _

/-- One string literal further. -/
theorem Reads.string {st st' : Expected} (s : Option String) (rest : List Char)
    (hnext : st.next? (.string s) = some st') : Reads st (renderString s ++ rest) st' rest := by
  have htake := Token.take?_renderString s rest
  obtain ⟨cs, hcs⟩ : ∃ cs, renderString s = '"' :: cs := by
    cases s with
    | none => exact ⟨_, rfl⟩
    | some s => exact ⟨_, rfl⟩
  rw [hcs] at htake ⊢
  exact .literal rfl htake hnext

theorem isBlank_char (d : Number.Digit) : Token.isBlank d.char = false := by
  revert d
  decide

/-- One numeral further. -/
theorem Reads.number {st st' : Expected} (n : Numeral) {rest : List Char} (hends : Ends rest)
    (hnext : st.next? (.number n) = some st') : Reads st (n.render ++ rest) st' rest := by
  have htake := Token.take?_render n hends
  obtain ⟨c, cs, hcs, hc⟩ := n.exists_render_eq
  have hblank : Token.isBlank c = false := by
    rcases hc with rfl | ⟨d, rfl⟩
    · rfl
    · exact isBlank_char d
  rw [hcs] at htake ⊢
  exact .literal hblank htake hnext

/-! ## Values -/

/-- A value of the containers `outer` may begin here. -/
def Opens (st : Expected) (outer : List Frame) : Prop :=
  ∀ t, t ≠ .closeArray → st.next? t = Expected.beginValue? outer t

theorem opens_value (outer : List Frame) : Opens (.value outer) outer := fun _ _ => rfl

theorem opens_firstItem (outer : List Frame) : Opens (.firstItem outer) (.array [] :: outer) := by
  intro t ht
  cases t with
  | closeArray => exact absurd rfl ht
  | _ => rfl

theorem ends_renderItems (vs : List Json) (rest : List Char) : Ends (renderItems vs ++ rest) := by
  cases vs with
  | nil => exact ends_cons (by decide)
  | cons v vs => exact ends_cons (by decide)

theorem ends_renderMembers (ms : List (Option String × Json)) (rest : List Char) :
    Ends (renderMembers ms ++ rest) := by
  cases ms with
  | nil => exact ends_cons (by decide)
  | cons m ms => exact ends_cons (by decide)

/-- A key and its colon lead to where the value of the key must come. -/
theorem Reads.member {st st' : Expected} {outer : List Frame}
    {members : List (Option String × Json)} {k : Option String} {cs rest : List Char}
    (hkey : st.next? (.string k) = some (.colon outer members k))
    (hvalue : Reads (.value (.object members k :: outer)) cs st' rest) :
    Reads st (renderString k ++ ':' :: cs) st' rest := by
  have hstring := Reads.string k (':' :: cs) hkey
  have hcolon : Reads (.colon outer members k) (':' :: cs)
      (.value (.object members k :: outer)) cs :=
    .mark rfl rfl rfl
  exact (hstring.trans hcolon).trans hvalue

mutual

/-- A value is read wherever one may begin and what follows does not go on with a numeral. -/
theorem reads_render {st : Expected} {outer : List Frame} (hst : Opens st outer) (rest : List Char)
    (hends : Ends rest) : ∀ v : Json, Reads st (v.render ++ rest) (.afterValue v outer) rest
  | .null => .literal rfl rfl (hst _ nofun)
  | .bool true => .literal rfl rfl (hst _ nofun)
  | .bool false => .literal rfl rfl (hst _ nofun)
  | .number n => .number n hends (hst _ nofun)
  | .string s => .string s rest (hst _ nofun)
  | .array [] => by
    have hopen (cs : List Char) : Reads st ('[' :: cs) (.firstItem outer) cs :=
      .mark rfl rfl (hst _ nofun)
    exact (hopen _).trans (.mark rfl rfl rfl)
  | .array (v :: vs) => by
    have hopen (cs : List Char) : Reads st ('[' :: cs) (.firstItem outer) cs :=
      .mark rfl rfl (hst _ nofun)
    have hfirst := reads_render (opens_firstItem outer) _ (ends_renderItems vs rest) v
    have hitems := reads_renderItems outer rest vs v []
    rw [render, List.cons_append, List.append_assoc]
    exact ((hopen _).trans hfirst).trans hitems
  | .object [] => by
    have hopen (cs : List Char) : Reads st ('\x7b' :: cs) (.firstMember outer) cs :=
      .mark rfl rfl (hst _ nofun)
    exact (hopen _).trans (.mark rfl rfl rfl)
  | .object ((k, v) :: ms) => by
    have hopen (cs : List Char) : Reads st ('\x7b' :: cs) (.firstMember outer) cs :=
      .mark rfl rfl (hst _ nofun)
    have hvalue := reads_render (opens_value (.object [] k :: outer)) _
      (ends_renderMembers ms rest) v
    have hmembers := reads_renderMembers outer rest ms k v []
    simp only [render, List.cons_append, List.append_assoc]
    exact ((hopen _).trans (.member rfl hvalue)).trans hmembers

/-- The items behind a value are read up to the end of the array. -/
theorem reads_renderItems (outer : List Frame) (rest : List Char) :
    ∀ (vs : List Json) (v : Json) (items : List Json),
      Reads (.afterValue v (.array items :: outer)) (renderItems vs ++ rest)
        (.afterValue (.array ((v :: items).reverse ++ vs)) outer) rest
  | [], v, items => by
    rw [List.append_nil]
    exact .mark rfl rfl rfl
  | w :: ws, v, items => by
    have hcomma (cs : List Char) : Reads (.afterValue v (.array items :: outer)) (',' :: cs)
        (.value (.array (v :: items) :: outer)) cs :=
      .mark rfl rfl rfl
    have hvalue := reads_render (opens_value (.array (v :: items) :: outer)) _
      (ends_renderItems ws rest) w
    have hitems := reads_renderItems outer rest ws w (v :: items)
    rw [List.reverse_cons, List.append_assoc, List.singleton_append] at hitems
    rw [renderItems, List.cons_append, List.append_assoc]
    exact ((hcomma _).trans hvalue).trans hitems

/-- The members behind a value are read up to the end of the object. -/
theorem reads_renderMembers (outer : List Frame) (rest : List Char) :
    ∀ (ms : List (Option String × Json)) (k : Option String) (v : Json)
      (members : List (Option String × Json)),
      Reads (.afterValue v (.object members k :: outer)) (renderMembers ms ++ rest)
        (.afterValue (.object (((k, v) :: members).reverse ++ ms)) outer) rest
  | [], k, v, members => by
    rw [List.append_nil]
    exact .mark rfl rfl rfl
  | (j, w) :: ms, k, v, members => by
    have hcomma (cs : List Char) : Reads (.afterValue v (.object members k :: outer)) (',' :: cs)
        (.key outer ((k, v) :: members)) cs :=
      .mark rfl rfl rfl
    have hvalue := reads_render (opens_value (.object ((k, v) :: members) j :: outer)) _
      (ends_renderMembers ms rest) w
    have hmembers := reads_renderMembers outer rest ms j w ((k, v) :: members)
    rw [List.reverse_cons, List.append_assoc, List.singleton_append] at hmembers
    simp only [renderMembers, List.cons_append, List.append_assoc]
    exact ((hcomma _).trans (.member rfl hvalue)).trans hmembers

end

/-- **A value that is written reads back.** -/
theorem read?_render (v : Json) : read? v.render = some v := by
  have h := reads_render (opens_value []) [] ends_nil v
  rw [List.append_nil] at h
  obtain ⟨ts, hfold, hscans⟩ := h
  have htokens : Token.ofText? v.render = some ts := by
    have hscan := hscans [] scans_nil v.render.length (Nat.le_refl _)
    rw [List.append_nil] at hscan
    exact hscan
  rw [read?, htokens, Option.bind_some, ofTokens?, hfold]

end Translit.Json
