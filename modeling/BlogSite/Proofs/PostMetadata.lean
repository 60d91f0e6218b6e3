import BlogSite.Page
import BlogSite.Proofs.EntityWriting
import BlogSite.Proofs.HtmlReading
import BlogSite.Proofs.JsonReading
import BlogSite.Proofs.TemplateTexts
import BlogSite.Starter.Templates

/-!
The metadata of a post. The page of a post in the default theme has a script with an object: the slug of the
post, the slug of its blog and its tags. They are escaped for the page and put between quotation marks as they
are. Read as JSON, the object tells them just when none of them has a backslash or a control character.
-/

namespace BlogSite

open Html

namespace PostPage

/-! ### The object -/

/-- The member for the tags, up to the end of the object. -/
def tagsPart (tags : List (List Char)) : List Char :=
  Json.member "tags".toList ('[' :: (Json.listed tags ++ [']','\x7d']))

/-- The members from the one for the blog on. -/
def blogPart (blog : List Char) (tags : List (List Char)) : List Char :=
  Json.member "blog".toList (Json.inMarks blog ++ ',' :: ' ' :: tagsPart tags)

/-- The members from the one for the post on. -/
def slugPart (slug blog : List Char) (tags : List (List Char)) : List Char :=
  Json.member "slug".toList (Json.inMarks slug ++ ',' :: ' ' :: blogPart blog tags)

/-- The object that tells of a post. -/
def metadata (slug blog : List Char) (tags : List (List Char)) : List Char :=
  '\x7b' :: slugPart slug blog tags

/-- An object tells the slugs of a post and of its blog, and the tags in their order. -/
structure Tells (es : Entries) (slug blog : List Char) (tags : List (List Char)) : Prop where
  slug : es.field "slug" = .str (String.ofList slug)
  blog : es.field "blog" = .str (String.ofList blog)
  tags : es.field "tags" = .list (Json.textValues tags)

variable {slug blog : List Char} {tags : List (List Char)}

/-- The members that the object is written with. -/
def members (slug blog : List Char) (tags : List (List Char)) : List (String × Value) :=
  [("slug",.str (String.ofList slug)),("blog",.str (String.ofList blog)),
    ("tags",.list (Json.textValues tags))]

theorem field_ofList_three (v w x : Value) :
    let es := Entries.ofList (Json.named [("slug",v),("blog",w),("tags",x)])
    es.field "slug" = v ∧ es.field "blog" = w ∧ es.field "tags" = x := by
  have hrows : Table.ofPairs [("slug",v),("blog",w),("tags",x)] = [("slug",v),("blog",w),("tags",x)] :=
    Table.ofPairs_of_nodup (show (["slug","blog","tags"] : List String).Nodup by decide)
  simp only [Json.ofList_named,hrows,Entries.field,Json.find?_named]
  exact ⟨rfl,rfl,rfl⟩

/-- Where an object tells the data, the text of its members has no quotation mark to spare. -/
theorem weight_of_tells {pairs : List (String × Value)}
    (h : Tells (Entries.ofList (Json.named pairs)) slug blog tags) :
    tags.length + 5 ≤ Json.weight (Json.named pairs) := by
  have hsubset : members slug blog tags ⊆ pairs := by
    intro e he
    simp only [members,List.mem_cons,List.not_mem_nil,or_false] at he
    rcases he with rfl | rfl | rfl
    · exact Json.mem_of_field h.slug (by simp)
    · exact Json.mem_of_field h.blog (by simp)
    · exact Json.mem_of_field h.tags (by simp)
  have hkeys : ((members slug blog tags).map Prod.fst).Nodup :=
    show (["slug","blog","tags"] : List String).Nodup by decide
  have hweight := Json.weight_le_of_subset hkeys hsubset
  rw [Json.weight_named]
  simp only [members,Json.weight_cons,Json.weight_nil,Json.texts,Json.countP_textValues] at hweight
  omega

/-- The keys are read as they are. -/
theorem isPlain_keys : ∀ key ∈ ["slug","blog","tags"], Json.IsPlain key.toList ∧ '"' ∉ key.toList := by
  decide

theorem quotes_tagsPart (h : ∀ t ∈ tags, '"' ∉ t) : Json.quotes (tagsPart tags) = 2 * tags.length + 2 := by
  rw [tagsPart,Json.quotes_member (isPlain_keys "tags" (by simp)).2,Json.quotes_cons_of_ne (by decide),
    Json.quotes_append,Json.quotes_listed h]
  rfl

theorem quotes_blogPart (hblog : '"' ∉ blog) (htags : ∀ t ∈ tags, '"' ∉ t) :
    Json.quotes (blogPart blog tags) = 2 * tags.length + 6 := by
  rw [blogPart,Json.quotes_member (isPlain_keys "blog" (by simp)).2,Json.quotes_append,
    Json.quotes_inMarks hblog,Json.quotes_cons_of_ne (by decide),Json.quotes_cons_of_ne (by decide),
    quotes_tagsPart htags]
  omega

/-- An object is read from its members, if they are read. -/
theorem read_metadata_eq (slug blog : List Char) (tags : List (List Char)) :
    Json.read (String.ofList (metadata slug blog tags)) =
      (Json.members (metadata slug blog tags).length (slugPart slug blog tags)).bind fun e =>
        if (Json.skipBlanks e.2).isEmpty then .ok (.map (Entries.ofList e.1)) else .error .malformed := by
  have hskip : Json.skipBlanks (metadata slug blog tags) = metadata slug blog tags := rfl
  obtain ⟨t,ht⟩ : ∃ t, slugPart slug blog tags = '"' :: t := ⟨_,rfl⟩
  unfold Json.read
  rw [String.toList_ofList]
  simp only
  rw [hskip,metadata,Json.value.eq_4,ht,Json.skipBlanks_of_not (by decide)]
  cases Json.members (('\x7b' :: '"' :: t).length) ('"' :: t) with
  | error f => rfl
  | ok e => rfl

/-- An object is read as what it was written with only if all its texts are plain. -/
theorem isPlain_of_tells (hslug : '"' ∉ slug) (hblog : '"' ∉ blog) (htags : ∀ t ∈ tags, '"' ∉ t)
    {es : Entries} (hread : Json.read (String.ofList (metadata slug blog tags)) = .ok (.map es))
    (h : Tells es slug blog tags) :
    Json.IsPlain slug ∧ Json.IsPlain blog ∧ ∀ t ∈ tags, Json.IsPlain t := by
  obtain ⟨hslugKey,hslugMark⟩ := isPlain_keys "slug" (by simp)
  obtain ⟨hblogKey,hblogMark⟩ := isPlain_keys "blog" (by simp)
  obtain ⟨htagsKey,htagsMark⟩ := isPlain_keys "tags" (by simp)
  rw [read_metadata_eq] at hread
  obtain ⟨⟨found,r⟩,hmembers,hend⟩ := exists_of_bind_eq_ok hread
  obtain rfl : Entries.ofList found = es := by
    simp only at hend
    split at hend
    · simpa using hend
    · contradiction
  obtain ⟨pairs,hpairs⟩ := Json.exists_named hmembers
  have hweight := weight_of_tells (hpairs ▸ h)
  rw [← hpairs] at hweight
  have hquotes := quotes_blogPart hblog htags
  -- Each text has its own quotation marks only, so it is read up to its end.
  obtain ⟨fuel₂,slug',more,rfl,hslug',hmembers₂,htight₂⟩ :=
    Json.members_text_tight hslugKey hslugMark hslug hmembers rfl (by omega)
  have hquotes₂ := quotes_tagsPart htags
  obtain ⟨fuel₃,blog',more,rfl,hblog',hmembers₃,htight₃⟩ :=
    Json.members_text_tight hblogKey hblogMark hblog hmembers₂ rfl (by omega)
  obtain ⟨tags',rfl,htags'⟩ := Json.members_listed_tight htagsKey htagsMark htags hmembers₃ (by
    rw [Json.quotes_of_notMem List.not_mem_nil]
    omega)
  obtain ⟨hslugField,hblogField,htagsField⟩ :=
    field_ofList_three (.str (String.ofList slug')) (.str (String.ofList blog')) (.list tags')
  exact ⟨hslug' (String.ofList_injective (Value.str.inj (hslugField.symm.trans h.slug))),
    hblog' (String.ofList_injective (Value.str.inj (hblogField.symm.trans h.blog))),
    htags' (Value.list.inj (htagsField.symm.trans h.tags))⟩

/-- The text of an object is longer than it is deep. -/
theorem length_metadata (slug : List Char) (hblog : '"' ∉ blog) (htags : ∀ t ∈ tags, '"' ∉ t) :
    tags.length + 5 ≤ (metadata slug blog tags).length := by
  have hcount : Json.quotes (slugPart slug blog tags) ≤ (slugPart slug blog tags).length :=
    List.count_le_length
  rw [slugPart,Json.quotes_member (isPlain_keys "slug" (by simp)).2,Json.quotes_append,
    Json.quotes_cons_of_ne (by decide),Json.quotes_cons_of_ne (by decide),quotes_blogPart hblog htags] at hcount
  rw [metadata,List.length_cons,slugPart]
  omega

/-- An object with plain texts is read as what it was written with. -/
theorem read_metadata (hslug : Json.IsPlain slug ∧ '"' ∉ slug) (hblog : Json.IsPlain blog ∧ '"' ∉ blog)
    (htags : ∀ t ∈ tags, Json.IsPlain t ∧ '"' ∉ t) :
    Json.read (String.ofList (metadata slug blog tags)) =
      .ok (.map (Entries.ofList (Json.named (members slug blog tags)))) := by
  obtain ⟨hslugKey,hslugMark⟩ := isPlain_keys "slug" (by simp)
  obtain ⟨hblogKey,hblogMark⟩ := isPlain_keys "blog" (by simp)
  obtain ⟨htagsKey,htagsMark⟩ := isPlain_keys "tags" (by simp)
  obtain ⟨fuel,hfuel⟩ := Nat.exists_eq_add_of_le
    (length_metadata slug hblog.2 fun t ht => (htags t ht).2)
  have htagsValue : Json.value (fuel + 2 + tags.length) ('[' :: (Json.listed tags ++ ']' :: ['\x7d'])) = _ :=
    Json.value_list_of_plain htags
  have hmembers₃ : Json.members (fuel + 2 + tags.length + 1) (tagsPart tags) = _ :=
    Json.members_last htagsKey htagsMark htagsValue rfl
  have hmembers₂ : Json.members (fuel + 2 + tags.length + 2) (blogPart blog tags) = _ :=
    Json.members_next hblogKey hblogMark (Json.value_of_plain hblog.1 hblog.2) rfl hmembers₃
  have hmembers : Json.members (fuel + 2 + tags.length + 3) (slugPart slug blog tags) = _ :=
    Json.members_next hslugKey hslugMark (Json.value_of_plain hslug.1 hslug.2) rfl hmembers₂
  rw [read_metadata_eq,hfuel,show tags.length + 5 + fuel = fuel + 2 + tags.length + 3 by omega,hmembers]
  rfl

theorem tells_members (slug blog : List Char) (tags : List (List Char)) :
    Tells (Entries.ofList (Json.named (members slug blog tags))) slug blog tags := by
  obtain ⟨hslug,hblog,htags⟩ := field_ofList_three (.str (String.ofList slug))
    (.str (String.ofList blog)) (.list (Json.textValues tags))
  exact ⟨hslug,hblog,htags⟩

/-- An object tells its data just when none of its texts has a backslash or a control character. -/
theorem tells_iff (hslug : '"' ∉ slug) (hblog : '"' ∉ blog) (htags : ∀ t ∈ tags, '"' ∉ t) :
    (∃ es, Json.read (String.ofList (metadata slug blog tags)) = .ok (.map es) ∧ Tells es slug blog tags) ↔
      Json.IsPlain slug ∧ Json.IsPlain blog ∧ ∀ t ∈ tags, Json.IsPlain t := by
  constructor
  · rintro ⟨es,hread,h⟩
    exact isPlain_of_tells hslug hblog htags hread h
  · rintro ⟨hslug',hblog',htags'⟩
    have hread := read_metadata ⟨hslug',hslug⟩ ⟨hblog',hblog⟩ fun t ht => ⟨htags' t ht,htags t ht⟩
    exact ⟨_,hread,tells_members slug blog tags⟩

/-! ### Texts for a page -/

theorem isPlain_written_iff (c : Char) : Json.IsPlain (written c) ↔ Json.IsPlain [c] := by
  by_cases hc : c ∈ ['&','<','>','"']
  · simp only [List.mem_cons,List.not_mem_nil,or_false] at hc
    rcases hc with rfl | rfl | rfl | rfl <;> decide
  · rw [written_of_notMem hc]

/-- Escaping for a page keeps backslashes and control characters and makes none. -/
theorem isPlain_escape_iff (s : List Char) : Json.IsPlain (escape s) ↔ Json.IsPlain s := by
  induction s with
  | nil => rfl
  | cons c s ih =>
    have happend : ∀ a b : List Char, Json.IsPlain (a ++ b) ↔ Json.IsPlain a ∧ Json.IsPlain b := by
      intro a b
      simp only [Json.IsPlain,List.forall_mem_append]
    rw [escape_cons,happend,isPlain_written_iff,ih,← List.singleton_append (l := s),happend]

theorem toList_rawTags (tags : List String) :
    (rawTags tags).toList = Json.listed (tags.map fun t => escape t.toList) := by
  have hmarks : ∀ t : String, ("\"" ++ escapeText t ++ "\"").toList = Json.inMarks (escape t.toList) := by
    intro t
    simp [Json.inMarks,toList_escapeText]
  rw [rawTags]
  induction tags with
  | nil => rfl
  | cons t tags ih =>
    cases tags with
    | nil => simp [Json.listed,Text.joinWith,hmarks]
    | cons t' tags =>
      rw [List.map_cons] at ih ⊢
      rw [List.map_cons,String.intercalate_cons_cons,String.toList_append,String.toList_append,hmarks,ih,
        List.map_cons,List.map_cons,List.map_cons,Json.listed_cons_cons,List.append_assoc]
      rfl

/-! ### The script of a page -/

def openingTag : String := "<script type=\"application/json\" id=\"post-meta\">"

def closingTag : String := "</script>"

/-- The text of the first script with the metadata on a page. -/
def script? (page : String) : Option String := do
  let (_,rest) ← Text.cutAt? openingTag.toList page.toList
  let (text,_) ← Text.cutAt? closingTag.toList rest
  return String.ofList text

/-- The template of a page before the script, with the names of its tokens. -/
def headPieces : List (String × String) :=
  [("<!DOCTYPE html>\n" ++ "<html lang=\"ja\">\n" ++ "<head>\n" ++ "  <meta charset=\"UTF-8\">\n" ++
      "  <meta name=\"viewport\" content=\"width=device-width, initial-scale=1.0\">\n" ++ "  <title>",
      "POST_TITLE"),
    (" - ","BLOG_TITLE"),
    ("</title>\n  <meta name=\"description\" content=\"","POST_EXCERPT")]

/-- The text of the template right before the script. -/
def lead : String := "\">\n  <link rel=\"stylesheet\" href=\"../../../assets/css/word-retro.css\">\n  "

/-- The template of a page in the script. -/
def objectPieces : List (String × String) :=
  [(lead ++ (openingTag ++ "\x7b\"slug\": \""),"POST_SLUG"),("\", \"blog\": \"","BLOG_SLUG"),
    ("\", \"tags\": [","POST_TAGS_RAW")]

/-- The end of the script in the template. -/
def objectEnd : String := "]\x7d" ++ closingTag

set_option maxRecDepth 2000 in
theorem assembled_pieces :
    Template.assembled (headPieces ++ objectPieces) objectEnd <+: Starter.postTemplate.toList := by
  unfold Template.assembled headPieces objectPieces lead objectEnd openingTag closingTag Starter.postTemplate
  simp only [List.cons_append,List.nil_append,List.flatMap_cons,List.flatMap_nil,String.toList_append,
    List.append_assoc,List.prefix_append_right_inj]
  -- What the template has after the script need not be known.
  generalize "</head>\n".toList ++ _ = rest
  simp only [String.reduceToList]
  exact ⟨'\n' :: rest,rfl⟩

theorem opensNone_pieces : ∀ p ∈ headPieces ++ objectPieces, Template.opensNone p.1.toList := by
  unfold headPieces objectPieces lead openingTag
  simp only [List.cons_append,List.nil_append,List.forall_mem_cons,String.toList_append,String.reduceToList]
  decide +kernel

theorem parted_headPieces : ∀ p ∈ headPieces, Text.parted '<' 's' p.1.toList := by
  unfold headPieces
  simp only [List.forall_mem_cons,String.toList_append,String.reduceToList]
  decide +kernel

variable (t : Theme) (b : Blog) (at_ : Place)

/-- The metadata as they are put into a page. -/
def shownMetadata : List Char :=
  metadata (escape at_.post.slug.toList) (escape b.slug.toList) (at_.post.tags.map fun t => escape t.toList)

theorem filledWith_pieces : Template.filledWith (shown t b at_) (headPieces ++ objectPieces) objectEnd =
    Template.filledWith (shown t b at_) headPieces lead ++
      (openingTag.toList ++ (shownMetadata b at_ ++ closingTag.toList)) := by
  have hslug : (shown t b at_).lookup "POST_SLUG" = some (escapeText at_.post.slug) := rfl
  have hblog : (shown t b at_).lookup "BLOG_SLUG" = some (escapeText b.slug) := rfl
  have htags : (shown t b at_).lookup "POST_TAGS_RAW" = some (rawTags at_.post.tags) := rfl
  simp [Template.filledWith,objectPieces,objectEnd,hslug,hblog,htags,toList_escapeText,toList_rawTags,
    shownMetadata,metadata,slugPart,blogPart,tagsPart,Json.member,Json.inMarks]

theorem notMem_lookup : ∀ p ∈ headPieces, '<' ∉ (((shown t b at_).lookup p.2).getD "").toList := by
  have hvalue : ∀ v : Value, '<' ∉ (escapeValue v).toList := by
    intro v
    simpa [escapeValue] using notMem_escape (by decide) v.text
  simp only [headPieces,List.forall_mem_cons,List.not_mem_nil,false_imp_iff,implies_true,and_true]
  exact ⟨hvalue at_.post.title,hvalue b.title,hvalue at_.post.excerpt⟩

/-- The names of the tokens on the page of a post. -/
def tokenNames : List String :=
  ["POST_TITLE","POST_DATE","POST_AUTHOR","POST_EXCERPT","POST_SLUG","POST_CONTENT","POST_TAGS","POST_TAGS_RAW",
    "BLOG_TITLE","BLOG_EMOJI","BLOG_SLUG","PREV_POST","NEXT_POST"]

theorem map_fst_shown : (shown t b at_).map Prod.fst = tokenNames := rfl

theorem begins_page : Template.filledWith (shown t b at_) (headPieces ++ objectPieces) objectEnd <+:
    (Template.fillNamed Starter.postTemplate (shown t b at_)).toList := by
  have hnames : tokenNames.Nodup ∧ ∀ n ∈ tokenNames, '\x7d' ∉ n.toList := by decide
  have htokens : ∀ p ∈ headPieces ++ objectPieces, p.2 ∈ tokenNames := by
    simp [headPieces,objectPieces,tokenNames]
  rw [← map_fst_shown t b at_] at hnames htokens
  exact Template.begins_fillNamed hnames.1 hnames.2 assembled_pieces
    (fun p hp => ⟨opensNone_pieces p hp,htokens p hp⟩) (by decide)

theorem notMem_shownMetadata : '<' ∉ shownMetadata b at_ := by
  have hescape : ∀ s : List Char, '<' ∉ escape s := notMem_escape (by decide)
  have hlisted : '<' ∉ Json.listed (at_.post.tags.map fun t => escape t.toList) := by
    refine Json.notMem_listed (by decide) fun s hs => ?_
    obtain ⟨tag,-,rfl⟩ := List.mem_map.mp hs
    exact hescape tag.toList
  simp [shownMetadata,metadata,slugPart,blogPart,tagsPart,Json.member,Json.inMarks,hescape,hlisted]

/-- The script on the page of a post has the metadata of the post, escaped for the page. -/
theorem script?_page : script? (Template.fillNamed Starter.postTemplate (shown t b at_)) =
    some (String.ofList (shownMetadata b at_)) := by
  obtain ⟨rest,hrest⟩ := begins_page t b at_
  have hhead : Text.parted '<' 's' (Template.filledWith (shown t b at_) headPieces lead) :=
    Template.parted_filledWith (fun p hp => ⟨parted_headPieces p hp,notMem_lookup t b at_ p hp⟩) (by decide)
  have hbody : Text.parted '<' '/' (shownMetadata b at_) :=
    Text.parted_of_notMem (notMem_shownMetadata b at_)
  have hopening : ['<','s'] <+: openingTag.toList := by decide
  have hclosing : ['<','/'] <+: closingTag.toList := by decide
  rw [filledWith_pieces,List.append_assoc,List.append_assoc,List.append_assoc] at hrest
  have hcut := Text.cutAt?_of_parted (t := rest) hclosing hbody
  rw [script?,← hrest,Text.cutAt?_of_parted hopening hhead]
  simp only [Option.bind_eq_bind,Option.bind_some,hcut]
  rfl

/-! ### The result -/

/-- The script on the page of a post in the default theme is an object that tells the slugs of the post and of
its blog and the tags of the post, as they are written on pages, just when none of them has a backslash or a
control character. -/
theorem script_tells_iff :
    (∃ text, script? (Template.fillNamed Starter.postTemplate (shown t b at_)) = some text ∧
      ∃ es, Json.read text = .ok (.map es) ∧
        Tells es (escape at_.post.slug.toList) (escape b.slug.toList)
          (at_.post.tags.map fun tag => escape tag.toList)) ↔
      Json.IsPlain at_.post.slug.toList ∧ Json.IsPlain b.slug.toList ∧
        ∀ tag ∈ at_.post.tags, Json.IsPlain tag.toList := by
  have hmark : ∀ s : List Char, '"' ∉ escape s := notMem_escape (by decide)
  have htags : ∀ tag ∈ at_.post.tags.map (fun tag => escape tag.toList), '"' ∉ tag :=
    List.forall_mem_map.mpr fun tag _ => hmark tag.toList
  rw [script?_page]
  simp only [Option.some.injEq,exists_eq_left']
  rw [shownMetadata,tells_iff (hmark _) (hmark _) htags]
  simp only [isPlain_escape_iff,List.forall_mem_map]

def sampleBlog : Blog where
  slug := "a"
  title := .str "Stars"
  desc := .str ""
  author := .str ""
  theme := .null
  planet := ⟨.str "",.str "",.str ""⟩

/-- A post with a backslash in its tag. -/
def backslashPost : Post where
  slug := "p"
  title := .str "Sun"
  date := "2024-03-01"
  author := .str ""
  excerpt := .str ""
  tags := ["a\\b"]
  content := ""

/-- The backslash is put into the script as it is, and the object does not tell the tag. -/
theorem script_backslashPost :
    ∃ text, script? (Template.fillNamed Starter.postTemplate
        (shown .default sampleBlog ⟨none,backslashPost,none⟩)) = some text ∧
      text = "\x7b\"slug\": \"p\", \"blog\": \"a\", \"tags\": [\"a\\b\"]\x7d" ∧
      ¬ ∃ es, Json.read text = .ok (.map es) ∧
        Tells es (escape backslashPost.slug.toList) (escape sampleBlog.slug.toList)
          (backslashPost.tags.map fun tag => escape tag.toList) := by
  refine ⟨_,script?_page _ _ _,by decide,?_⟩
  rintro ⟨es,hread,h⟩
  have hmarks : '"' ∉ escape backslashPost.slug.toList ∧ '"' ∉ escape sampleBlog.slug.toList ∧
      ∀ tag ∈ backslashPost.tags.map (fun tag => escape tag.toList), '"' ∉ tag := by decide
  obtain ⟨-,-,hplain⟩ := isPlain_of_tells hmarks.1 hmarks.2.1 hmarks.2.2 hread h
  have hback := hplain ['a','\\','b'] (by decide) '\\' (by decide)
  exact hback.1 rfl

end PostPage

end BlogSite
