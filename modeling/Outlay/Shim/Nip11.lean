import Outlay.Data.Escape
import Outlay.Json

/-!
# The NIP-11 page

The bridge shows the NIP-11 document of a server as an HTML page. The document is
whatever the server says: four texts are put into the page, and all of them are
escaped first.

The escaping replaces one character after another, over the whole text. It is the
single pass over a table of entities (`esc_eq`), as `&` is replaced first.
-/

namespace Outlay.Shim

/-- `str::replace` of a character. -/
def replace (c : Char) (r s : String) : String :=
  String.ofList (Escape.replace c r.toList s.toList)

/-- Escape a text for the page. -/
def esc (s : String) : String :=
  replace '"' "&quot;" (replace '>' "&gt;" (replace '<' "&lt;" (replace '&' "&amp;" s)))

/-- The name shown in the title and the heading of the page. -/
def pageName (doc : Json) : String := ((doc.get "name").bind Json.asStr).getD "Nostr relay"

/-- The button that opens the feed in Jumble. -/
def jumbleBtn (relay : String) : String :=
  "<p><a class=\"btn\" href=\"https://jumble.social/?r=" ++ relay ++
    "\" target=\"_blank\" rel=\"noopener noreferrer\">Open feed in Jumble ↗</a></p>"

/-- The template of the page. -/
def page (title name jumbleBtn doc : String) : String :=
  "<!doctype html><html lang=\"en\"><head><meta charset=\"utf-8\"><title>" ++ title ++
    "</title>" ++
    "<style>body\x7bfont-family:system-ui,sans-serif;max-width:46rem;margin:2rem auto;" ++
    "padding:0 1rem\x7d" ++
    ".btn\x7bdisplay:inline-block;padding:.5rem 1rem;background:#6c4efc;color:#fff;" ++
    "text-decoration:none;border-radius:.5rem\x7d" ++
    "pre\x7bbackground:#f5f5f5;padding:1rem;overflow:auto;border-radius:.5rem\x7d</style></head>" ++
    "<body><h1>" ++ name ++ "</h1>" ++
    "<p>outlay-shim bridge. Nostr clients: request this URL with " ++
    "<code>Accept: application/nostr+json</code> for the NIP-11 document.</p>" ++
    jumbleBtn ++ "<pre>" ++ doc ++ "</pre></body></html>"

/-- The page of a document, with the button if there is a relay to open. -/
def renderHtml (doc : Json) (jumble : Option String) : String :=
  let name := pageName doc
  let btn :=
    match jumble with
    | some relay => jumbleBtn (esc relay)
    | none => ""
  page (esc name) (esc name) btn (esc doc.toStringPretty)

/-! ## The entities -/

/-- The entities, in the order of their replacement. -/
def entities : Escape.Table Char where
  entries := [('&', "&amp;".toList), ('<', "&lt;".toList), ('>', "&gt;".toList),
    ('"', "&quot;".toList)]
  marker := '&'
  reserved := by decide
  marked := fun e he => ⟨e.2.tail, by revert e; decide⟩
  clean := by decide
  ordered := by decide
  prefixFree := by decide

/-- The single pass that maps each of the four characters to its entity. -/
def escapeHtml (s : String) : String :=
  String.ofList (Escape.escape entities.entries s.toList)

/-- The decoding of the four entities. -/
def unescapeHtml (s : String) : String := String.ofList (entities.decode s.toList)

theorem replace_toList (c : Char) (r s : String) :
    (replace c r s).toList = Escape.replace c r.toList s.toList := String.toList_ofList

/-- The replacements come to a single pass. -/
theorem esc_eq (s : String) : esc s = escapeHtml s := by
  have h := Escape.replaceAll_eq_escape entities.ordered s.toList
  rw [escapeHtml, ← h, esc, replace, replace_toList, replace_toList, replace_toList]
  rfl

theorem esc_toList (s : String) :
    (esc s).toList = Escape.escape entities.entries s.toList := by
  rw [esc_eq, escapeHtml, String.toList_ofList]

theorem esc_append (s t : String) : esc (s ++ t) = esc s ++ esc t := by
  refine String.toList_injective ?_
  simp only [esc_toList, String.toList_append, Escape.escape_append]

theorem unescapeHtml_esc (s : String) : unescapeHtml (esc s) = s := by
  rw [unescapeHtml, esc_toList, entities.decode_escape, String.ofList_toList]

/-! ## The markup -/

/-- A character of markup. -/
def isMarkup (c : Char) : Bool := c = '<' ∨ c = '>' ∨ c = '"'

/-- The markup of a text: its characters that are not text, in their order. -/
def markup (s : String) : List Char := s.toList.filter isMarkup

theorem markup_append (s t : String) : markup (s ++ t) = markup s ++ markup t := by
  rw [markup, String.toList_append, List.filter_append, markup, markup]

/-- Markup is reserved, and not the start of an entity. -/
theorem entity_of_isMarkup {c : Char} (h : isMarkup c = true) :
    c ≠ entities.marker ∧ ∃ e ∈ entities.entries, e.1 = c := by
  rcases of_decide_eq_true h with rfl | rfl | rfl <;> decide

/-- An escaped text has no markup. -/
theorem markup_esc (s : String) : markup (esc s) = [] := by
  rw [markup, esc_toList]
  exact entities.filter_escape fun _ => entity_of_isMarkup

/-- The page with nothing put in. -/
def template (button : Bool) : String := page "" "" (if button then jumbleBtn "" else "") ""

/-- The markup of the button depends on that of the relay only. -/
theorem markup_jumbleBtn {r r' : String} (h : markup r = markup r') :
    markup (jumbleBtn r) = markup (jumbleBtn r') := by
  delta jumbleBtn
  simp only [markup_append, h]

/-- The markup of the page depends on that of what is put in only. -/
theorem markup_page {t t' n n' b b' d d' : String} (ht : markup t = markup t')
    (hn : markup n = markup n') (hb : markup b = markup b') (hd : markup d = markup d') :
    markup (page t n b d) = markup (page t' n' b' d') := by
  delta page
  simp only [markup_append, ht, hn, hb, hd]

theorem markup_renderHtml (doc : Json) (jumble : Option String) :
    markup (renderHtml doc jumble) = markup (template jumble.isSome) := by
  have hesc (s : String) : markup (esc s) = markup "" := markup_esc s
  cases jumble with
  | none => exact markup_page (hesc _) (hesc _) rfl (hesc _)
  | some relay => exact markup_page (hesc _) (hesc _) (markup_jumbleBtn (hesc relay)) (hesc _)

/-- The button is determined by the page. -/
theorem page_injective {title name btn btn' doc : String}
    (h : page title name btn doc = page title name btn' doc) : btn = btn' := by
  delta page at h
  exact (String.append_right_inj _).1 ((String.append_left_inj _).1
    ((String.append_left_inj _).1 ((String.append_left_inj _).1 h)))

/-- The link is determined by the page. -/
theorem renderHtml_injective {doc : Json} {link link' : String}
    (h : renderHtml doc (some link) = renderHtml doc (some link')) : link = link' := by
  have hbtn : jumbleBtn (esc link) = jumbleBtn (esc link') := page_injective h
  have hesc : esc link = esc link' := by
    delta jumbleBtn at hbtn
    exact (String.append_right_inj _).1 ((String.append_left_inj _).1 hbtn)
  rw [← unescapeHtml_esc link, hesc, unescapeHtml_esc]

/-! ## The law -/

/-- The law of an escaping of HTML. -/
structure EscapesHtml (f : String → String) : Prop where
  single : ∀ s, f s = escapeHtml s
  append : ∀ s t, f (s ++ t) = f s ++ f t
  noMarkup : ∀ s, ∀ c ∈ (f s).toList, c ≠ '<' ∧ c ≠ '>' ∧ c ≠ '"'
  /-- Every `&` starts an entity. -/
  entity : ∀ s p q, (f s).toList = p ++ '&' :: q → ∃ e ∈ entities.entries, e.2 <+: '&' :: q
  decode : ∀ s, unescapeHtml (f s) = s

/-- The texts stand in the page, each in its place. -/
structure Displays (html title name : String) (link : Option String) (document : String) :
    Prop where
  title : ("<title>" ++ title ++ "</title>").toList <:+: html.toList
  heading : ("<h1>" ++ name ++ "</h1>").toList <:+: html.toList
  link : ∀ l ∈ link, ("href=\"https://jumble.social/?r=" ++ l ++ "\"").toList <:+: html.toList
  document : ("<pre>" ++ document ++ "</pre>").toList <:+: html.toList

/-- A page has the markup of the template, and shows what it is a page of. -/
structure Shows (doc : Json) (jumble : Option String) (html : String) : Prop where
  markup : markup html = markup (template jumble.isSome)
  /-- What is put into the template stands in the page, and decodes to its source. -/
  inserted : ∃ title name document : String, ∃ link : Option String,
    html = page title name ((link.map jumbleBtn).getD "") document ∧
      Displays html title name link document ∧
        unescapeHtml title = pageName doc ∧ unescapeHtml name = pageName doc ∧
          link.map unescapeHtml = jumble ∧ unescapeHtml document = doc.toStringPretty

theorem escapesHtml_esc : EscapesHtml esc where
  single := esc_eq
  append := esc_append
  noMarkup s c hc := by
    have hnot : ¬isMarkup c = true := List.filter_eq_nil_iff.1 (markup_esc s) c hc
    simpa [isMarkup, not_or] using hnot
  entity s p q h := by
    rw [esc_toList] at h
    obtain ⟨_, e, l, he, -, -, hq⟩ := entities.marker_escape h
    exact ⟨e, he, ⟨_, hq.symm⟩⟩
  decode := unescapeHtml_esc

/-! What is put into the page is found in it. -/

theorem infix_between (a x b c : String) :
    (a ++ (x ++ b)).toList <:+: (a ++ (x ++ (b ++ c))).toList := by
  refine ⟨[], c.toList, ?_⟩
  simp only [String.toList_append, List.nil_append, List.append_assoc]

theorem infix_after {x s : String} (p : String) (h : x.toList <:+: s.toList) :
    x.toList <:+: (p ++ s).toList := by
  rw [String.toList_append]
  exact h.trans (List.suffix_append _ _).isInfix

theorem infix_before {x s : String} (r : String) (h : x.toList <:+: s.toList) :
    x.toList <:+: (s ++ r).toList := by
  rw [String.toList_append]
  exact h.trans (List.prefix_append _ _).isInfix

/-- The link stands in the button. -/
theorem link_infix_jumbleBtn (relay : String) :
    ("href=\"https://jumble.social/?r=" ++ relay ++ "\"").toList <:+: (jumbleBtn relay).toList := by
  have hopen : "<p><a class=\"btn\" href=\"https://jumble.social/?r=" =
      "<p><a class=\"btn\" " ++ "href=\"https://jumble.social/?r=" := by decide +kernel
  have hclose : "\" target=\"_blank\" rel=\"noopener noreferrer\">Open feed in Jumble ↗</a></p>" =
      "\"" ++ " target=\"_blank\" rel=\"noopener noreferrer\">Open feed in Jumble ↗</a></p>" := by
    decide +kernel
  delta jumbleBtn
  rw [hopen, hclose]
  simp only [String.append_assoc]
  exact infix_after _ (infix_between _ _ _ _)

/-- What is put into the page stands in it. -/
theorem displays_page (title name document : String) (link : Option String) :
    Displays (page title name ((link.map jumbleBtn).getD "") document) title name link
      document := by
  have hhead : "<!doctype html><html lang=\"en\"><head><meta charset=\"utf-8\"><title>" =
      "<!doctype html><html lang=\"en\"><head><meta charset=\"utf-8\">" ++ "<title>" := by
    decide +kernel
  have hbody : "<body><h1>" = "<body>" ++ "<h1>" := by decide +kernel
  have hend : "</pre></body></html>" = "</pre>" ++ "</body></html>" := by decide +kernel
  delta page
  rw [hhead, hbody, hend]
  simp only [String.append_assoc]
  -- In each case, what stands before the text is left out, piece by piece.
  constructor
  case title =>
    rw [String.append_assoc]
    exact infix_after _ (infix_between _ _ _ _)
  case heading =>
    rw [String.append_assoc]
    iterate 10 refine infix_after _ ?_
    exact infix_between _ _ _ _
  case link =>
    rintro l hl
    obtain rfl := Option.mem_def.1 hl
    iterate 15 refine infix_after _ ?_
    exact infix_before _ (link_infix_jumbleBtn l)
  case document =>
    rw [String.append_assoc]
    iterate 16 refine infix_after _ ?_
    exact infix_between _ _ _ _

/-- Whatever a server says in its document, it cannot inject anything into the page. -/
theorem uninjected : EscapesHtml esc ∧
    ∀ doc jumble, Shows doc jumble (renderHtml doc jumble) := by
  refine ⟨escapesHtml_esc, fun doc jumble => ⟨markup_renderHtml doc jumble, ?_⟩⟩
  have hpage : renderHtml doc jumble = page (esc (pageName doc)) (esc (pageName doc))
      (((jumble.map esc).map jumbleBtn).getD "") (esc doc.toStringPretty) := by
    cases jumble <;> rfl
  refine ⟨esc (pageName doc), esc (pageName doc), esc doc.toStringPretty, jumble.map esc, hpage,
    ?_, unescapeHtml_esc _, unescapeHtml_esc _, ?_, unescapeHtml_esc _⟩
  · rw [hpage]
    exact displays_page _ _ _ _
  · cases jumble with
    | none => rfl
    | some relay => exact congrArg some (unescapeHtml_esc relay)

example : esc "<a href=\"?x&amp;y\">" = "&lt;a href=&quot;?x&amp;amp;y&quot;&gt;" := by decide

end Outlay.Shim
