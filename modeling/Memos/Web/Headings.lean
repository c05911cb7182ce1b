import Memos.Library.Numbering
import Memos.Library.Preorder

namespace Memos
namespace Web
namespace Headings

open Library

/-!
# The anchors of headings

The outline of a memo and its page give every heading an anchor, each from a
tree of its own and with counts of its own.  The outline passes over headings
below the fourth level, and the page over those whose text has no letter or
digit of ASCII.  A number behind a repeated anchor may spell another heading's
text.
-/

abbrev Text := List Char

/-! ## Slugs -/

/-- `toLowerCase`, as far as the result has ASCII letters. -/
def lower (c : Char) : Char :=
  if c = '\u212A' then 'k' else if c = '\u0130' then 'i' else c.toLower

/-- The white space of a regular expression, which is also what `trim` removes. -/
def isSpace (c : Char) : Bool :=
  c ∈ ['\t', '\n', '\u000B', '\u000C', '\r', ' ', '\u00A0', '\u1680', '\u2028', '\u2029', '\u202F',
      '\u205F', '\u3000', '\uFEFF'] ||
    (0x2000 ≤ c.toNat && c.toNat ≤ 0x200A)

def isWord (c : Char) : Bool :=
  ('a' ≤ c && c ≤ 'z') || ('A' ≤ c && c ≤ 'Z') || ('0' ≤ c && c ≤ '9') || c = '_'

def trim (text : Text) : Text :=
  ((text.dropWhile isSpace).reverse.dropWhile isSpace).reverse

/-- Every run of these characters becomes one dash. -/
def replaceRuns (within : Char -> Bool) (inRun : Bool) : Text -> Text
  | [] => []
  | c :: rest =>
      if within c then
        if inRun then replaceRuns within true rest else '-' :: replaceRuns within true rest
      else c :: replaceRuns within false rest

/-- `replace(/^-|-$/g, "")` -/
def trimDashes (text : Text) : Text :=
  let tail := if text.head? = some '-' then text.tail else text
  if tail.getLast? = some '-' then tail.dropLast else tail

def slugify (text : Text) : Text :=
  let kept := (trim (text.map lower)).filter fun c => isWord c || isSpace c || c = '-'
  let joined := replaceRuns (fun c => isSpace c || c = '_') false kept
  trimDashes (replaceRuns (fun c => c = '-') false joined)

example : slugify "  Hello, World_2 -- (a) ".toList = "hello-world-2-a".toList := by decide +kernel

/-! ## The outline -/

/-- What the outline reads of a node of the Markdown tree. -/
structure MdastData where
  type : String
  offset : Nat
  depth : Nat := 0
  value : Option Text := none

abbrev MdastNode := Rose MdastData

mutual

def getNodeText : MdastNode -> Text
  | .node data children =>
      if data.value.getD [] ≠ [] then data.value.getD [] else getNodeTexts children

def getNodeTexts : List MdastNode -> Text
  | [] => []
  | child :: children => getNodeText child ++ getNodeTexts children

end

structure HeadingItem where
  text : Text
  level : Nat
  slug : Text
deriving DecidableEq

/-- The visitor of the headings. -/
def visitHeading (state : List HeadingItem × (Text -> Nat)) (node : MdastNode) :
    List HeadingItem × (Text -> Nat) :=
  if node.label.type ≠ "heading" then state
  else if node.label.depth < 1 ∨ node.label.depth > 4 then state
  else
    let text := getNodeText node
    if text = [] then state
    else
      let slug := slugify text
      let count := state.2 slug
      (state.1 ++ [{ text, level := node.label.depth, slug := numbered slug count }],
        oneMore state.2 slug)

/-- `extractHeadings`, of the tree of the document. -/
def extractHeadings (tree : MdastNode) : List HeadingItem :=
  (tree.subtrees.foldl visitHeading ([], fun _ => 0)).1

/-! ## The page -/

/-- What the page's plugin reads of a node of the HTML tree. -/
inductive HastData where
  | text (value : Text)
  | element (tagName : String) (offset : Option Nat) (id : Option Text)
  | other

abbrev HastNode := Rose HastData

mutual

def textOf : HastNode -> Text
  | .node (.text value) _ => value
  | .node (.element _ _ _) children => getTextContent children
  | .node .other _ => []

/-- `getTextContent`, of an element with these children. -/
def getTextContent : List HastNode -> Text
  | [] => []
  | child :: children => textOf child ++ getTextContent children

end

/-- `/^h[1-6]$/` -/
def isHeadingTag (tagName : String) : Bool := tagName ∈ ["h1", "h2", "h3", "h4", "h5", "h6"]

/-- The visitor of the elements. -/
def visitElement (node : HastNode) (slugCounts : Text -> Nat) : HastData × (Text -> Nat) :=
  match node with
  | .node (.element tagName offset id) children =>
      if !isHeadingTag tagName then (.element tagName offset id, slugCounts)
      else
        let slug := slugify (getTextContent children)
        if slug = [] then (.element tagName offset id, slugCounts)
        else
          let count := slugCounts slug
          (.element tagName offset (some (numbered slug count)), oneMore slugCounts slug)
  | .node data _ => (data, slugCounts)

def rehypeHeadingId (tree : HastNode) : HastNode := (relabel visitElement tree fun _ => 0).1

/-! ## Agreement -/

/-- The headings that the outline lists. -/
def isOutlined (node : MdastNode) : Bool :=
  node.label.type = "heading" && (1 ≤ node.label.depth && node.label.depth ≤ 4) &&
    getNodeText node ≠ []

def outlined (tree : MdastNode) : List MdastNode := tree.subtrees.filter isOutlined

/-- The place and the id of a heading of the page. -/
def anchor? : HastData -> Option (Option Nat × Option Text)
  | .element tagName offset id => if isHeadingTag tagName then some (offset, id) else none
  | _ => none

def anchors (page : HastNode) : List (Option Nat × Option Text) :=
  (page.subtrees.map Rose.label).filterMap anchor?

/-- The slugs of the outline are distinct, and the heading of the page at the
place of an outlined one has its slug as its id. -/
def AnchorsAgree (fromMarkdown : Text -> MdastNode) (render : Text -> HastNode) (markdown : Text) :
    Prop :=
  ((extractHeadings (fromMarkdown markdown)).map HeadingItem.slug).Nodup ∧
    ∀ node item,
      (node, item) ∈ (outlined (fromMarkdown markdown)).zip (extractHeadings (fromMarkdown markdown)) ->
      (Exists fun id => (some node.label.offset, id) ∈ anchors (rehypeHeadingId (render markdown))) ∧
        ∀ id, (some node.label.offset, id) ∈ anchors (rehypeHeadingId (render markdown)) ->
          id = some item.slug

/-! ## What the outline lists -/

def nodeSlug (node : MdastNode) : Text := slugify (getNodeText node)

def itemOf (node : MdastNode) (count : Nat) : HeadingItem :=
  { text := getNodeText node, level := node.label.depth, slug := numbered (nodeSlug node) count }

theorem visitHeading_eq (state : List HeadingItem × (Text -> Nat)) (node : MdastNode) :
    visitHeading state node =
      if isOutlined node then
        (state.1 ++ [itemOf node (state.2 (nodeSlug node))], oneMore state.2 (nodeSlug node))
      else state := by
  unfold visitHeading isOutlined
  by_cases heading : node.label.type = "heading"
  · by_cases level : node.label.depth < 1 ∨ node.label.depth > 4
    · have outside : (1 ≤ node.label.depth && node.label.depth ≤ 4) = false := by
        simp only [Bool.and_eq_false_iff, decide_eq_false_iff_not]
        omega
      rw [if_neg (not_not.mpr heading), if_pos level, outside]
      simp
    · have within : (1 ≤ node.label.depth && node.label.depth ≤ 4) = true := by
        simp only [Bool.and_eq_true, decide_eq_true_eq]
        omega
      rw [if_neg (not_not.mpr heading), if_neg level, within]
      by_cases empty : getNodeText node = []
      · simp [empty]
      · simp [empty, heading, itemOf, nodeSlug]
  · simp [heading]

theorem foldl_visitHeading (nodes : List MdastNode) (items : List HeadingItem) (counts : Text -> Nat) :
    (nodes.foldl visitHeading (items, counts)).1 =
      items ++ (counted nodeSlug counts (nodes.filter isOutlined)).map fun entry =>
        itemOf entry.1 entry.2 := by
  induction nodes generalizing items counts with
  | nil => exact (List.append_nil items).symm
  | cons node nodes ih =>
      rw [List.foldl_cons, visitHeading_eq]
      by_cases listed : isOutlined node = true
      · rw [if_pos listed, ih, List.filter_cons_of_pos listed, counted,
          List.map_cons, List.append_assoc]
        rfl
      · rw [if_neg listed, ih, List.filter_cons_of_neg listed]

/-- The items of the outline, with the number of each. -/
theorem extractHeadings_eq (tree : MdastNode) :
    extractHeadings tree =
      (counted nodeSlug (fun _ => 0) (outlined tree)).map fun entry => itemOf entry.1 entry.2 := by
  rw [extractHeadings, foldl_visitHeading, List.nil_append, outlined]

theorem zip_extractHeadings (tree : MdastNode) :
    (outlined tree).zip (extractHeadings tree) =
      (counted nodeSlug (fun _ => 0) (outlined tree)).map fun entry =>
        (entry.1, itemOf entry.1 entry.2) := by
  have nodes := map_fst_counted nodeSlug (fun _ => 0) (outlined tree)
  rw [extractHeadings_eq]
  generalize counted nodeSlug (fun _ => 0) (outlined tree) = entries at nodes ⊢
  rw [← nodes, List.zip_map']

/-! ## What the page gives -/

/-- A heading of the page before the plugin. -/
structure PageHeading where
  offset : Option Nat
  id : Option Text
  text : Text

def pageHeading? : HastNode -> Option PageHeading
  | .node (.element tagName offset id) children =>
      if isHeadingTag tagName then some { offset, id, text := getTextContent children } else none
  | _ => none

def pageHeadings (page : HastNode) : List PageHeading := page.subtrees.filterMap pageHeading?

def PageHeading.slug (heading : PageHeading) : Text := slugify heading.text

/-- The id of a heading behind so many of its slug. -/
def PageHeading.idAfter (heading : PageHeading) (count : Nat) : Option Text :=
  if heading.slug = [] then heading.id else some (numbered heading.slug count)

/-- The visitor passes over what is no heading. -/
theorem visitElement_of_none {node : HastNode} (noHeading : pageHeading? node = none) (counts : Text -> Nat) :
    anchor? (visitElement node counts).1 = none ∧ (visitElement node counts).2 = counts := by
  rcases node with ⟨_ | ⟨tagName, offset, id⟩ | _, children⟩
  · exact ⟨rfl, rfl⟩
  · by_cases heading : isHeadingTag tagName = true
    · rw [pageHeading?, if_pos heading] at noHeading
      contradiction
    · rw [Bool.not_eq_true] at heading
      rw [visitElement, heading]
      exact ⟨by rw [if_pos (by decide), anchor?, heading]; rfl, rfl⟩
  · exact ⟨rfl, rfl⟩

/-- The visitor gives a heading its id, and counts it when it has a slug. -/
theorem visitElement_of_some {node : HastNode} {heading : PageHeading}
    (isHeading : pageHeading? node = some heading) (counts : Text -> Nat) :
    anchor? (visitElement node counts).1 =
        some (heading.offset, heading.idAfter (counts heading.slug)) ∧
      (visitElement node counts).2 =
        if heading.slug = [] then counts else oneMore counts heading.slug := by
  rcases node with ⟨_ | ⟨tagName, offset, id⟩ | _, children⟩
  · contradiction
  · by_cases tag : isHeadingTag tagName = true
    · rw [pageHeading?, if_pos tag] at isHeading
      obtain rfl := Option.some.inj isHeading
      have visited : visitElement (.node (.element tagName offset id) children) counts =
          if slugify (getTextContent children) = [] then (.element tagName offset id, counts)
          else (.element tagName offset
              (some (numbered (slugify (getTextContent children))
                (counts (slugify (getTextContent children))))),
            oneMore counts (slugify (getTextContent children))) := by
        rw [visitElement, tag, if_neg (by decide)]
      rw [visited, PageHeading.idAfter, PageHeading.slug]
      dsimp only
      split
      · exact ⟨if_pos tag, rfl⟩
      · exact ⟨if_pos tag, rfl⟩
    · rw [pageHeading?, if_neg tag] at isHeading
      contradiction
  · contradiction

/-- Along the nodes of the page: only headings with a slug are counted, and no
other count is asked for. -/
theorem filterMap_labelsAlong (nodes : List HastNode) (counts shown : Text -> Nat)
    (alike : ∀ slug, slug ≠ [] -> counts slug = shown slug) :
    (labelsAlong visitElement nodes counts).1.filterMap anchor? =
      (counted PageHeading.slug shown (nodes.filterMap pageHeading?)).map fun entry =>
        (entry.1.offset, entry.1.idAfter entry.2) := by
  induction nodes generalizing counts shown with
  | nil => rfl
  | cons node nodes ih =>
      rw [labelsAlong]
      dsimp only
      cases read : pageHeading? node with
      | none =>
          rcases visitElement_of_none read counts with ⟨noAnchor, same⟩
          rw [List.filterMap_cons_none noAnchor, same, List.filterMap_cons_none read]
          exact ih counts shown alike
      | some heading =>
          rcases visitElement_of_some read counts with ⟨isAnchor, after⟩
          rw [List.filterMap_cons_some isAnchor, List.filterMap_cons_some read, counted, List.map_cons,
            after]
          have sameId : heading.idAfter (counts heading.slug) = heading.idAfter (shown heading.slug) := by
            unfold PageHeading.idAfter
            split
            · rfl
            · rename_i nonempty
              rw [alike heading.slug nonempty]
          rw [sameId, ih _ (oneMore shown heading.slug)]
          intro slug nonempty
          by_cases empty : heading.slug = []
          · rw [if_pos empty, empty, oneMore_of_ne shown nonempty, alike slug nonempty]
          · rw [if_neg empty]
            by_cases same : slug = heading.slug
            · rw [same, oneMore_self, oneMore_self, alike heading.slug empty]
            · rw [oneMore_of_ne counts same, oneMore_of_ne shown same, alike slug nonempty]

/-- The places and ids of the page's headings, with the number of each. -/
theorem anchors_rehypeHeadingId (page : HastNode) :
    anchors (rehypeHeadingId page) =
      (counted PageHeading.slug (fun _ => 0) (pageHeadings page)).map fun entry =>
        (entry.1.offset, entry.1.idAfter entry.2) := by
  have labels := congrArg Prod.fst (labels_relabel visitElement page fun _ => 0)
  rw [anchors, rehypeHeadingId, pageHeadings, ← filterMap_labelsAlong page.subtrees _ _ fun _ _ => rfl]
  exact congrArg (List.filterMap anchor?) labels

/-! ## When they agree -/

/-- The slug of an outlined heading behind so many is the id of a heading of the
page behind so many others. -/
def SameAnchor (slug : Text) (count : Nat) (heading : PageHeading) (other : Nat) : Prop :=
  if heading.slug = [] then heading.id = some (numbered slug count)
  else
    (heading.slug = slug ∧ other = count) ∨
      (other = 0 ∧ 0 < count ∧ heading.slug = slug ++ '-' :: Nat.toDigits 10 count) ∨
      (count = 0 ∧ 0 < other ∧ slug = heading.slug ++ '-' :: Nat.toDigits 10 other)

/-- At the place of every outlined heading the page has a heading, behind as many
of the same slug. -/
def SameHeadings (outline : MdastNode) (page : HastNode) : Prop :=
  ∀ before node after, outlined outline = before ++ node :: after ->
    (Exists fun heading => heading ∈ pageHeadings page ∧ heading.offset = some node.label.offset) ∧
      ∀ earlier heading later, pageHeadings page = earlier ++ heading :: later ->
        heading.offset = some node.label.offset ->
        SameAnchor (nodeSlug node) ((before.map nodeSlug).count (nodeSlug node)) heading
          ((earlier.map PageHeading.slug).count heading.slug)

theorem idAfter_eq_some_iff (slug : Text) (count : Nat) (heading : PageHeading) (other : Nat) :
    heading.idAfter other = some (numbered slug count) ↔ SameAnchor slug count heading other := by
  unfold PageHeading.idAfter SameAnchor
  split
  · exact Iff.rfl
  · rw [Option.some_inj]
    exact numbered_eq_iff heading.slug slug other count

/-- The anchors agree and are distinct exactly when the page has the headings of
the outline in the same numbers, and no slug is spelled like another's number. -/
theorem anchorsAgree_iff (fromMarkdown : Text -> MdastNode) (render : Text -> HastNode) (markdown : Text) :
    AnchorsAgree fromMarkdown render markdown ↔
      NumbersApart ((outlined (fromMarkdown markdown)).map nodeSlug) ∧
        SameHeadings (fromMarkdown markdown) (render markdown) := by
  unfold AnchorsAgree SameHeadings
  generalize fromMarkdown markdown = outline
  generalize render markdown = page
  have distinct : ((extractHeadings outline).map HeadingItem.slug).Nodup ↔
      NumbersApart ((outlined outline).map nodeSlug) := by
    rw [extractHeadings_eq, List.map_map, ← nodup_numbered_iff]
    exact Iff.rfl
  have located := map_fst_counted PageHeading.slug (fun _ => 0) (pageHeadings page)
  refine and_congr distinct ?_
  rw [zip_extractHeadings, anchors_rehypeHeadingId]
  constructor
  · intro agree before node after outlined_eq
    have member := (mem_counted_from_zero nodeSlug (outlined outline) node _).mpr
      ⟨before, after, outlined_eq, rfl⟩
    rcases agree node (itemOf node _) (List.mem_map_of_mem member) with ⟨⟨id, here⟩, sameIds⟩
    constructor
    · rcases List.mem_map.mp here with ⟨entry, among, entry_eq⟩
      refine ⟨entry.1, ?_, congrArg Prod.fst entry_eq⟩
      rw [← located]
      exact List.mem_map_of_mem among
    · intro earlier heading later headings_eq place
      have among := (mem_counted_from_zero PageHeading.slug (pageHeadings page) heading _).mpr
        ⟨earlier, later, headings_eq, rfl⟩
      refine (idAfter_eq_some_iff _ _ _ _).mp (sameIds _ (List.mem_map.mpr ⟨_, among, ?_⟩))
      rw [place]
  · intro same node item member
    rcases List.mem_map.mp member with ⟨⟨node, count⟩, among, entry_eq⟩
    obtain ⟨rfl, rfl⟩ := Prod.mk.inj entry_eq
    rcases (mem_counted_from_zero nodeSlug (outlined outline) node count).mp among with
      ⟨before, after, outlined_eq, rfl⟩
    rcases same before node after outlined_eq with ⟨⟨heading, isHeading, place⟩, sameAnchors⟩
    constructor
    · rw [← located] at isHeading
      rcases List.mem_map.mp isHeading with ⟨found, counted, rfl⟩
      refine ⟨found.1.idAfter found.2, List.mem_map.mpr ⟨found, counted, ?_⟩⟩
      rw [place]
    · intro id here
      rcases List.mem_map.mp here with ⟨⟨heading, other⟩, counted, found_eq⟩
      obtain ⟨place, rfl⟩ := Prod.mk.inj found_eq
      rcases (mem_counted_from_zero PageHeading.slug (pageHeadings page) heading other).mp counted with
        ⟨earlier, later, headings_eq, rfl⟩
      exact (idAfter_eq_some_iff _ _ _ _).mpr (sameAnchors earlier heading later headings_eq place)

/-- The Markdown tree of headings with a text each, which begin at these offsets. -/
def parsedHeadings (headings : List (Nat × Nat × Text)) : MdastNode :=
  .node { type := "root", offset := 0 } (headings.map fun heading =>
    .node { type := "heading", offset := heading.1, depth := heading.2.1 }
      [.node { type := "text", offset := heading.1 + heading.2.1 + 1, value := some heading.2.2 } []])

/-- The HTML tree of these headings. -/
def renderedHeadings (headings : List (Nat × Nat × Text)) : HastNode :=
  .node .other ((headings.map fun heading =>
    .node (.element ("h" ++ toString heading.2.1) (some heading.1) none)
      [.node (.text heading.2.2) []]).intersperse (.node (.text ['\n']) []))

/-- A heading is spelled like another's number, a heading of the fifth level is
counted on the page only, and a heading without a letter of ASCII has no id. -/
theorem headings_not_anchorsAgree :
    ¬ AnchorsAgree
        (fun _ => parsedHeadings [(0, 1, "a".toList), (5, 1, "a".toList), (10, 1, "a-1".toList)])
        (fun _ => renderedHeadings [(0, 1, "a".toList), (5, 1, "a".toList), (10, 1, "a-1".toList)])
        "# a\n\n# a\n\n# a-1".toList ∧
      ¬ AnchorsAgree (fun _ => parsedHeadings [(0, 5, "a".toList), (9, 1, "a".toList)])
        (fun _ => renderedHeadings [(0, 5, "a".toList), (9, 1, "a".toList)])
        "##### a\n\n# a".toList ∧
      ¬ AnchorsAgree (fun _ => parsedHeadings [(0, 1, "标题".toList)])
        (fun _ => renderedHeadings [(0, 1, "标题".toList)]) "# 标题".toList := by
  refine ⟨?_, ?_, ?_⟩
  · rintro ⟨distinct, _⟩
    exact absurd distinct (by decide +kernel)
  · rintro ⟨_, agree⟩
    have sameId := (agree _ { text := ['a'], level := 1, slug := ['a'] }
      (List.mem_singleton.mpr rfl)).2 (some "a-1".toList) (by decide +kernel)
    exact absurd sameId (by decide)
  · rintro ⟨_, agree⟩
    have sameId := (agree _ { text := "标题".toList, level := 1, slug := [] }
      (List.mem_singleton.mpr rfl)).2 none (by decide +kernel)
    contradiction

end Headings
end Web
end Memos
