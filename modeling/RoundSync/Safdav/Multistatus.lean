import RoundSync.Safdav.Moves
import RoundSync.Text.Xml

/-!
# The listing of a directory

`onPropFind` answers with the directory and its direct children.  The address of the
request is written as the server has received it, decoded; the names of children are
encoded for a URI, and what is shown of them is escaped for XML.  The names of the
permissions, which are the children of the root, are neither.
-/

namespace RoundSync.Safdav.Multistatus

open RoundSync.Text RoundSync.Text.AndroidUri

/-! ## Items -/

/-- The characters of texts that need no escaping. -/
def isPlain (c : Char) : Bool :=
  Xml.isChar c && c ∉ ['<', '>', '&', '\r']

/-- A date, a number or a media type. -/
abbrev PlainText := { s : JavaString // s.all isPlain = true }

/-- The formats of dates. -/
structure DateFormats where
  rfc1123 : Int64 → PlainText
  rfc3339 : Int64 → PlainText

/-- `Long.toString`. -/
def longText (n : Int64) : JavaString :=
  if n.toInt < 0 then '-' :: Nat.toDigits 10 n.toInt.natAbs else Nat.toDigits 10 n.toInt.natAbs

theorem isPlain_of_isDigit {c : Char} (digit : c.isDigit = true) : isPlain c = true := by
  obtain ⟨low, high⟩ : 48 ≤ c.toNat ∧ c.toNat ≤ 57 := by
    simp only [Char.isDigit, ge_iff_le, Bool.and_eq_true, decide_eq_true_eq,
      UInt32.le_iff_toNat_le] at digit
    exact digit
  have others : c ∉ ['<', '>', '&', '\r'] := by
    intro member
    simp only [List.mem_cons, List.not_mem_nil, or_false] at member
    rcases member with rfl | rfl | rfl | rfl
    all_goals exact absurd digit (by decide)
  have char : Xml.isChar c = true := by
    simp only [Xml.isChar, Bool.or_eq_true, Bool.and_eq_true, decide_eq_true_eq]
    right
    omega
  simp [isPlain, char, others]

theorem isPlain_longText (n : Int64) : (longText n).all isPlain = true := by
  have digits : (Nat.toDigits 10 n.toInt.natAbs).all isPlain = true := by
    apply List.all_eq_true.mpr
    intro c member
    exact isPlain_of_isDigit (Nat.isDigit_of_mem_toDigits (by decide) (by decide) member)
  rw [longText]
  split_ifs
  · rw [List.all_cons, digits]
    rfl
  · exact digits

/-- What the serialisation asks of an item. -/
structure Properties where
  isCollection : Bool
  link : JavaString
  name : Option JavaString
  status : PlainText
  lastModified : PlainText
  creationDate : PlainText
  contentLength : PlainText
  contentType : PlainText
  eTag : PlainText

structure SafItem where
  properties : Properties
  children : List Properties

def statusOk : PlainText :=
  ⟨text "HTTP/1.1 200 OK", by decide⟩

/-- A document of a provider. -/
structure SafFastItem where
  name : JavaString
  contentType : Option PlainText
  lastModified : Int64
  size : Int64
  isCollection : Bool

namespace SafFastItem

def getLink (item : SafFastItem) : JavaString :=
  let encodedName := (formEncode item.name).flatMap fun c => if c = '+' then text "%20" else [c]
  if item.isCollection then encodedName ++ ['/'] else encodedName

def getContentType (item : SafFastItem) : PlainText :=
  if item.isCollection then ⟨text "inode/directory", by decide⟩
  else item.contentType.getD ⟨text "application/octet-stream", by decide⟩

def properties (formats : DateFormats) (item : SafFastItem) : Properties where
  isCollection := item.isCollection
  link := item.getLink
  name := some item.name
  status := statusOk
  lastModified := formats.rfc1123 item.lastModified
  creationDate := formats.rfc3339 item.lastModified
  contentLength := ⟨longText item.size, isPlain_longText item.size⟩
  contentType := item.getContentType
  eTag := formats.rfc1123 item.lastModified

end SafFastItem

/-- A permission, with the name that `getPathForUri` gives it and a slash behind it. -/
structure SafPermissionItem where
  link : JavaString
  encodedPath : Option JavaString
  persistedTime : Int64

namespace SafPermissionItem

def properties (formats : DateFormats) (item : SafPermissionItem) : Properties where
  isCollection := true
  link := item.link
  name := item.encodedPath
  status := statusOk
  lastModified := formats.rfc1123 item.persistedTime
  creationDate := formats.rfc3339 item.persistedTime
  contentLength := ⟨text "-1", by decide⟩
  contentType := ⟨text "application/vnd.android.UriPermission", by decide⟩
  eTag := ⟨longText item.persistedTime, isPlain_longText item.persistedTime⟩

/-- The holder of all permissions, which has no URI of its own. -/
def root (formats : DateFormats) (permissions : List SafPermissionItem) : SafItem where
  properties :=
    { isCollection := true
      link := []
      name := some (text "Storage Permissions")
      status := statusOk
      lastModified := formats.rfc1123 0
      creationDate := formats.rfc3339 0
      contentLength := ⟨text "-1", by decide⟩
      contentType := ⟨text "application/vnd.android.UriPermission", by decide⟩
      eTag := ⟨[], rfl⟩ }
  children := permissions.map (properties formats)

end SafPermissionItem

/-! ## The serialisation -/

def escapeEntity (c : Char) : JavaString :=
  if c = '"' then text "&quot;"
  else if c = '\'' then text "&apos;"
  else if c = '<' then text "&lt;"
  else if c = '>' then text "&gt;"
  else if c = '&' then text "&amp;"
  else [c]

def xmlEscape (input : Option JavaString) : JavaString :=
  match input with
  | none => []
  | some input => input.flatMap escapeEntity

/-- The response of a collection; the link of the one that is listed is left out. -/
def writeCollection (child : Properties) (depth : Nat) (baseUrl : JavaString)
    (flattenUrl : Bool) : JavaString :=
  text "<D:response><D:href>" ++ baseUrl ++
    (if flattenUrl && depth = 1 then [] else child.link) ++
    text "</D:href><D:propstat><D:status>" ++ child.status.val ++
    text "</D:status><D:prop><D:getcontenttype/><D:getlastmodified>" ++ child.lastModified.val ++
    text "</D:getlastmodified><D:lockdiscovery/><D:ishidden>0</D:ishidden>" ++
    text "<D:getetag/><D:displayname>" ++ xmlEscape child.name ++
    text "</D:displayname><D:getcontentlanguage/><D:getcontentlength>" ++
    child.contentLength.val ++
    text "</D:getcontentlength><D:iscollection>1</D:iscollection><D:creationdate>" ++
    child.creationDate.val ++
    text "</D:creationdate><D:resourcetype><D:collection/></D:resourcetype></D:prop>" ++
    text "</D:propstat></D:response>"

def writeElement (child : Properties) (baseUrl : JavaString) : JavaString :=
  text "<D:response><D:href>" ++ baseUrl ++ child.link ++
    text "</D:href><D:propstat><D:status>" ++ child.status.val ++
    text "</D:status><D:prop><D:getcontenttype>" ++ child.contentType.val ++
    text "</D:getcontenttype><D:getlastmodified>" ++ child.lastModified.val ++
    text "</D:getlastmodified><D:lockdiscovery/><D:ishidden>0</D:ishidden><D:getetag>" ++
    child.eTag.val ++
    text "</D:getetag><D:displayname>" ++ xmlEscape child.name ++
    text "</D:displayname><D:getcontentlanguage/><D:getcontentlength>" ++
    child.contentLength.val ++
    text "</D:getcontentlength><D:iscollection>0</D:iscollection><D:creationdate>" ++
    child.creationDate.val ++
    text "</D:creationdate><D:resourcetype/></D:prop></D:propstat></D:response>"

/-- At depth zero the children of an item are not asked for. -/
def writeResponseElement (child : Properties) (depth : Nat) (baseUrl : JavaString)
    (flattenUrl : Bool) : JavaString :=
  if child.isCollection then writeCollection child depth baseUrl flattenUrl
  else writeElement child baseUrl

def propFindSerialize (item : SafItem) (baseUrl : JavaString) : JavaString :=
  let baseUrl :=
    if item.properties.isCollection ∧ baseUrl.getLast? ≠ some '/' then baseUrl ++ ['/']
    else baseUrl
  text "<?xml version=\"1.0\" encoding=\"utf-8\"?><D:multistatus xmlns:D=\"DAV:\">" ++
    writeResponseElement item.properties 1 baseUrl item.properties.isCollection ++
    (if item.properties.isCollection then
      item.children.flatMap fun grandChild =>
        writeResponseElement grandChild 0 baseUrl item.properties.isCollection
    else []) ++
    text "</D:multistatus>"

/-- The body of the answer to a request for an item that has been found. -/
def onPropFind (directory : SafItem) (uri : JavaString) : JavaString :=
  let requestUri :=
    if SAF_REMOTE_URL <:+: uri then uri else SAF_REMOTE_URL ++ uri.drop 1
  propFindSerialize directory requestUri

/-! ## The tokens of the answer -/

/-- A tag with a text behind it. -/
def token (tag : String) (s : JavaString) : Xml.Token :=
  ⟨text tag, s⟩

/-- What comes behind the address in the response of a collection. -/
def collectionDetails (child : Properties) : List Xml.Token :=
  [token "/D:href" [], token "D:propstat" [], token "D:status" child.status.val,
    token "/D:status" [], token "D:prop" [], token "D:getcontenttype/" [],
    token "D:getlastmodified" child.lastModified.val, token "/D:getlastmodified" [],
    token "D:lockdiscovery/" [], token "D:ishidden" ['0'], token "/D:ishidden" [],
    token "D:getetag/" [], token "D:displayname" (xmlEscape child.name),
    token "/D:displayname" [], token "D:getcontentlanguage/" [],
    token "D:getcontentlength" child.contentLength.val, token "/D:getcontentlength" [],
    token "D:iscollection" ['1'], token "/D:iscollection" [],
    token "D:creationdate" child.creationDate.val, token "/D:creationdate" [],
    token "D:resourcetype" [], token "D:collection/" [], token "/D:resourcetype" [],
    token "/D:prop" [], token "/D:propstat" [], token "/D:response" []]

def elementDetails (child : Properties) : List Xml.Token :=
  [token "/D:href" [], token "D:propstat" [], token "D:status" child.status.val,
    token "/D:status" [], token "D:prop" [], token "D:getcontenttype" child.contentType.val,
    token "/D:getcontenttype" [], token "D:getlastmodified" child.lastModified.val,
    token "/D:getlastmodified" [], token "D:lockdiscovery/" [], token "D:ishidden" ['0'],
    token "/D:ishidden" [], token "D:getetag" child.eTag.val, token "/D:getetag" [],
    token "D:displayname" (xmlEscape child.name), token "/D:displayname" [],
    token "D:getcontentlanguage/" [], token "D:getcontentlength" child.contentLength.val,
    token "/D:getcontentlength" [], token "D:iscollection" ['0'], token "/D:iscollection" [],
    token "D:creationdate" child.creationDate.val, token "/D:creationdate" [],
    token "D:resourcetype/" [], token "/D:prop" [], token "/D:propstat" [],
    token "/D:response" []]

def details (child : Properties) : List Xml.Token :=
  if child.isCollection then collectionDetails child else elementDetails child

/-- One response, about an item under an address. -/
def response (entry : Properties × JavaString) : List Xml.Token :=
  token "D:response" [] :: token "D:href" entry.2 :: details entry.1

def prolog : List Xml.Token :=
  [token "?xml version=\"1.0\" encoding=\"utf-8\"?" [],
    token "D:multistatus xmlns:D=\"DAV:\"" []]

def epilog : List Xml.Token :=
  [token "/D:multistatus" []]

/-- The answer about a list of items. -/
def multistatus (entries : List (Properties × JavaString)) : List Xml.Token :=
  prolog ++ (entries.flatMap response ++ epilog)

theorem writeCollection_eq {child : Properties} (collection : child.isCollection = true)
    (depth : Nat) (baseUrl : JavaString) (flattenUrl : Bool) :
    writeCollection child depth baseUrl flattenUrl =
      Xml.written (response
        (child, baseUrl ++ if flattenUrl && depth = 1 then [] else child.link)) := by
  have address : text "<D:response><D:href>" =
      Xml.written [token "D:response" [], token "D:href" []] := by decide
  have status : text "</D:href><D:propstat><D:status>" =
      Xml.written [token "/D:href" [], token "D:propstat" [], token "D:status" []] := by decide
  have modified : text "</D:status><D:prop><D:getcontenttype/><D:getlastmodified>" =
      Xml.written [token "/D:status" [], token "D:prop" [], token "D:getcontenttype/" [],
        token "D:getlastmodified" []] := by decide
  have hidden : text "</D:getlastmodified><D:lockdiscovery/><D:ishidden>0</D:ishidden>" =
      Xml.written [token "/D:getlastmodified" [], token "D:lockdiscovery/" [],
        token "D:ishidden" ['0'], token "/D:ishidden" []] := by decide
  have name : text "<D:getetag/><D:displayname>" =
      Xml.written [token "D:getetag/" [], token "D:displayname" []] := by decide
  have length : text "</D:displayname><D:getcontentlanguage/><D:getcontentlength>" =
      Xml.written [token "/D:displayname" [], token "D:getcontentlanguage/" [],
        token "D:getcontentlength" []] := by decide
  have date : text "</D:getcontentlength><D:iscollection>1</D:iscollection><D:creationdate>" =
      Xml.written [token "/D:getcontentlength" [], token "D:iscollection" ['1'],
        token "/D:iscollection" [], token "D:creationdate" []] := by decide
  have type : text "</D:creationdate><D:resourcetype><D:collection/></D:resourcetype></D:prop>" =
      Xml.written [token "/D:creationdate" [], token "D:resourcetype" [],
        token "D:collection/" [], token "/D:resourcetype" [], token "/D:prop" []] := by decide
  have last : text "</D:propstat></D:response>" =
      Xml.written [token "/D:propstat" [], token "/D:response" []] := by decide
  delta writeCollection
  simp only [address, status, modified, hidden, name, length, date, type, last, Xml.written, response, details, collection, if_true, collectionDetails, token,
    List.flatMap_cons, List.flatMap_nil, List.cons_append, List.append_assoc, List.nil_append,
    List.append_nil]

theorem writeElement_eq {child : Properties} (element : child.isCollection = false)
    (baseUrl : JavaString) :
    writeElement child baseUrl = Xml.written (response (child, baseUrl ++ child.link)) := by
  have address : text "<D:response><D:href>" =
      Xml.written [token "D:response" [], token "D:href" []] := by decide
  have status : text "</D:href><D:propstat><D:status>" =
      Xml.written [token "/D:href" [], token "D:propstat" [], token "D:status" []] := by decide
  have type : text "</D:status><D:prop><D:getcontenttype>" =
      Xml.written [token "/D:status" [], token "D:prop" [], token "D:getcontenttype" []] := by
    decide
  have modified : text "</D:getcontenttype><D:getlastmodified>" =
      Xml.written [token "/D:getcontenttype" [], token "D:getlastmodified" []] := by decide
  have tag : text "</D:getlastmodified><D:lockdiscovery/><D:ishidden>0</D:ishidden><D:getetag>" =
      Xml.written [token "/D:getlastmodified" [], token "D:lockdiscovery/" [],
        token "D:ishidden" ['0'], token "/D:ishidden" [], token "D:getetag" []] := by decide
  have name : text "</D:getetag><D:displayname>" =
      Xml.written [token "/D:getetag" [], token "D:displayname" []] := by decide
  have length : text "</D:displayname><D:getcontentlanguage/><D:getcontentlength>" =
      Xml.written [token "/D:displayname" [], token "D:getcontentlanguage/" [],
        token "D:getcontentlength" []] := by decide
  have date : text "</D:getcontentlength><D:iscollection>0</D:iscollection><D:creationdate>" =
      Xml.written [token "/D:getcontentlength" [], token "D:iscollection" ['0'],
        token "/D:iscollection" [], token "D:creationdate" []] := by decide
  have last :
      text "</D:creationdate><D:resourcetype/></D:prop></D:propstat></D:response>" =
      Xml.written [token "/D:creationdate" [], token "D:resourcetype/" [], token "/D:prop" [],
        token "/D:propstat" [], token "/D:response" []] := by decide
  delta writeElement
  simp only [address, status, type, modified, tag, name, length, date, last, Xml.written, response, details, element, Bool.false_eq_true, if_false,
    elementDetails, token, List.flatMap_cons, List.flatMap_nil, List.cons_append,
    List.append_assoc, List.nil_append, List.append_nil]

/-- The answer about a collection under a base that ends in a slash. -/
theorem propFindSerialize_eq {item : SafItem} {baseUrl : JavaString}
    (collection : item.properties.isCollection = true) (slash : baseUrl.getLast? = some '/') :
    propFindSerialize item baseUrl =
      Xml.written (multistatus ((item.properties, baseUrl) ::
        item.children.map fun child => (child, baseUrl ++ child.link))) := by
  have own : writeResponseElement item.properties 1 baseUrl true =
      Xml.written (response (item.properties, baseUrl)) := by
    rw [writeResponseElement, if_pos collection, writeCollection_eq collection]
    simp
  have children : (item.children.flatMap fun child => writeResponseElement child 0 baseUrl true) =
      Xml.written ((item.children.map fun child => (child, baseUrl ++ child.link)).flatMap
        response) := by
    rw [List.flatMap_map, Xml.written, List.flatMap_assoc]
    apply List.flatMap_congr
    intro child _
    rw [writeResponseElement]
    cases kind : child.isCollection with
    | true =>
        rw [if_pos rfl, writeCollection_eq kind]
        rfl
    | false =>
        rw [if_neg Bool.false_ne_true, writeElement_eq kind]
        rfl
  have prologText : Xml.written prolog = text
      "<?xml version=\"1.0\" encoding=\"utf-8\"?><D:multistatus xmlns:D=\"DAV:\">" := by
    decide
  have epilogText : Xml.written epilog = text "</D:multistatus>" := by decide
  rw [propFindSerialize, multistatus, List.flatMap_cons, Xml.written_append, Xml.written_append,
    Xml.written_append, prologText, epilogText, ← own, ← children]
  simp only [collection, slash, ne_eq, not_true_eq_false, and_false, if_false, if_true,
    List.append_assoc]

/-! ## What the tokens hold -/

def opening (name : String) : Xml.Tag :=
  .opening (text name)

def closing (name : String) : Xml.Tag :=
  .closing (text name)

def empty (name : String) : Xml.Tag :=
  .empty (text name)

def detailTags (isCollection : Bool) : List Xml.Tag :=
  if isCollection then
    [closing "D:href", opening "D:propstat", opening "D:status", closing "D:status",
      opening "D:prop", empty "D:getcontenttype", opening "D:getlastmodified",
      closing "D:getlastmodified", empty "D:lockdiscovery", opening "D:ishidden",
      closing "D:ishidden", empty "D:getetag", opening "D:displayname", closing "D:displayname",
      empty "D:getcontentlanguage", opening "D:getcontentlength", closing "D:getcontentlength",
      opening "D:iscollection", closing "D:iscollection", opening "D:creationdate",
      closing "D:creationdate", opening "D:resourcetype", empty "D:collection",
      closing "D:resourcetype", closing "D:prop", closing "D:propstat", closing "D:response"]
  else
    [closing "D:href", opening "D:propstat", opening "D:status", closing "D:status",
      opening "D:prop", opening "D:getcontenttype", closing "D:getcontenttype",
      opening "D:getlastmodified", closing "D:getlastmodified", empty "D:lockdiscovery",
      opening "D:ishidden", closing "D:ishidden", opening "D:getetag", closing "D:getetag",
      opening "D:displayname", closing "D:displayname", empty "D:getcontentlanguage",
      opening "D:getcontentlength", closing "D:getcontentlength", opening "D:iscollection",
      closing "D:iscollection", opening "D:creationdate", closing "D:creationdate",
      empty "D:resourcetype", closing "D:prop", closing "D:propstat", closing "D:response"]

theorem readTag_details (child : Properties) :
    ((details child).map Xml.Token.tag).mapM Xml.readTag = some (detailTags child.isCollection) := by
  cases kind : child.isCollection with
  | true =>
      simp only [details, kind, if_true, collectionDetails, token, List.map_cons, List.map_nil]
      decide
  | false =>
      simp only [details, kind, Bool.false_eq_true, if_false, elementDetails, token,
        List.map_cons, List.map_nil]
      decide

theorem opening_href_notMem_detailTags (isCollection : Bool) :
    opening "D:href" ∉ detailTags isCollection := by
  cases isCollection with
  | true => decide
  | false => decide

theorem balanced_detailTags (isCollection : Bool) (below : List JavaString)
    (rest : List Xml.Tag) :
    Xml.balanced (text "D:href" :: text "D:response" :: below)
        (detailTags isCollection ++ rest) = Xml.balanced below rest := by
  cases isCollection with
  | true => simp [detailTags, opening, closing, empty, Xml.balanced]
  | false => simp [detailTags, opening, closing, empty, Xml.balanced]

theorem tagFree_details {child : Properties} :
    ∀ token ∈ details child, Xml.TagFree token.tag := by
  have all : ((details child).map Xml.Token.tag).all
      (fun tag => decide (Xml.TagFree tag)) = true := by
    cases kind : child.isCollection with
    | true =>
        simp only [details, kind, if_true, collectionDetails, token, List.map_cons, List.map_nil]
        decide
    | false =>
        simp only [details, kind, Bool.false_eq_true, if_false, elementDetails, token,
          List.map_cons, List.map_nil]
        decide
  intro token member
  exact of_decide_eq_true (List.all_eq_true.mp all _ (List.mem_map_of_mem member))

theorem isChar_tag_details {child : Properties} :
    ∀ token ∈ details child, token.tag.all Xml.isChar = true := by
  have all : ((details child).map Xml.Token.tag).all (fun tag => tag.all Xml.isChar) = true := by
    cases kind : child.isCollection with
    | true =>
        simp only [details, kind, if_true, collectionDetails, token, List.map_cons, List.map_nil]
        decide
    | false =>
        simp only [details, kind, Bool.false_eq_true, if_false, elementDetails, token,
          List.map_cons, List.map_nil]
        decide
  intro token member
  exact List.all_eq_true.mp all _ (List.mem_map_of_mem member)

/-- Every text but the name is plain. -/
theorem text_details {child : Properties} :
    ∀ token ∈ details child,
      token.text = xmlEscape child.name ∨ token.text.all isPlain = true := by
  intro found member
  rw [details] at member
  split at member
  all_goals
    simp only [collectionDetails, elementDetails, token, List.mem_cons, List.not_mem_nil,
      or_false] at member
    rcases member with rfl | rfl | rfl | rfl | rfl | rfl | rfl | rfl | rfl | rfl | rfl | rfl |
      rfl | rfl | rfl | rfl | rfl | rfl | rfl | rfl | rfl | rfl | rfl | rfl | rfl | rfl | rfl
  all_goals
    first
    | exact Or.inl rfl
    | exact Or.inr rfl
    | exact Or.inr child.status.property
    | exact Or.inr child.lastModified.property
    | exact Or.inr child.creationDate.property
    | exact Or.inr child.contentLength.property
    | exact Or.inr child.contentType.property
    | exact Or.inr child.eTag.property

/-! ## Texts that are read -/

theorem notMem_of_isPlain {s : JavaString} (plain : s.all isPlain = true) {c : Char}
    (special : isPlain c = false) : c ∉ s := by
  intro member
  rw [List.all_eq_true.mp plain c member] at special
  cases special

theorem sectionEnd_not_within {s : JavaString} (free : '>' ∉ s) : ¬Xml.sectionEnd <:+: s :=
  fun within => free (within.subset (by decide))

theorem readText_of_isPlain {s : JavaString} (plain : s.all isPlain = true) :
    Xml.readText s = some s :=
  Xml.readText_of_plain (notMem_of_isPlain plain (by decide))
    (notMem_of_isPlain plain (by decide))
    (sectionEnd_not_within (notMem_of_isPlain plain (by decide)))

theorem notMem_escapeEntity {special : Char} (marks : special ∈ ['<', '>']) (c : Char) :
    special ∉ escapeEntity c := by
  have entities : special ∉ text "&quot;" ∧ special ∉ text "&apos;" ∧ special ∉ text "&lt;" ∧
      special ∉ text "&gt;" ∧ special ∉ text "&amp;" := by
    simp only [List.mem_cons, List.not_mem_nil, or_false] at marks
    rcases marks with rfl | rfl
    · decide
    · decide
  rw [escapeEntity]
  split_ifs with quot apos less greater ampersand
  · exact entities.1
  · exact entities.2.1
  · exact entities.2.2.1
  · exact entities.2.2.2.1
  · exact entities.2.2.2.2
  · intro member
    rw [List.mem_singleton.mp member] at marks
    simp only [List.mem_cons, List.not_mem_nil, or_false] at marks
    exact marks.elim less greater

theorem notMem_xmlEscape {special : Char} (marks : special ∈ ['<', '>'])
    (input : Option JavaString) : special ∉ xmlEscape input := by
  cases input with
  | none => exact List.not_mem_nil
  | some input =>
      intro member
      obtain ⟨c, _, escaped⟩ := List.mem_flatMap.mp member
      exact notMem_escapeEntity marks c escaped

theorem resolveFrom_escapeEntity (c : Char) (rest : JavaString) :
    Xml.resolveFrom none (escapeEntity c ++ rest) = (Xml.resolveFrom none rest).map (c :: ·) := by
  rw [escapeEntity]
  split_ifs with quot apos less greater ampersand
  · rw [quot]
    rfl
  · rw [apos]
    rfl
  · rw [less]
    rfl
  · rw [greater]
    rfl
  · rw [ampersand]
    rfl
  · rw [List.singleton_append, Xml.resolveFrom, if_neg ampersand]

theorem resolveFrom_xmlEscape (input : JavaString) :
    Xml.resolveFrom none (input.flatMap escapeEntity) = some input := by
  induction input with
  | nil => rfl
  | cons c input ih =>
      rw [List.flatMap_cons, resolveFrom_escapeEntity, ih]
      rfl

theorem return_notMem_escapeEntity {c : Char} (apart : c ≠ '\r') : '\r' ∉ escapeEntity c := by
  rw [escapeEntity]
  split_ifs
  · decide
  · decide
  · decide
  · decide
  · decide
  · exact fun member => apart (List.mem_singleton.mp member).symm

theorem head?_escapeEntity {c : Char} (apart : c ≠ '\n') (rest : JavaString) :
    (escapeEntity c ++ rest).head? ≠ some '\n' := by
  rw [escapeEntity]
  split_ifs
  · simp [text]
  · simp [text]
  · simp [text]
  · simp [text]
  · simp [text]
  · simpa using apart

/-- Escaping and normalising line ends can change places. -/
theorem normalizeLines_flatMap_escapeEntity (input : JavaString) :
    Xml.normalizeLines (input.flatMap escapeEntity) =
      (Xml.normalizeLines input).flatMap escapeEntity := by
  fun_induction Xml.normalizeLines input with
  | case1 rest ih =>
      rw [List.flatMap_cons, List.flatMap_cons, List.flatMap_cons, ← ih]
      rfl
  | case2 rest alone ih =>
      have head : (rest.flatMap escapeEntity).head? ≠ some '\n' := by
        cases rest with
        | nil => simp
        | cons c rest =>
            rw [List.flatMap_cons]
            exact head?_escapeEntity (fun same => alone rest (same ▸ rfl)) _
      rw [List.flatMap_cons, List.flatMap_cons, ← ih]
      exact Xml.normalizeLines_return head
  | case3 c rest _ apart ih =>
      rw [List.flatMap_cons, List.flatMap_cons,
        Xml.normalizeLines_append (return_notMem_escapeEntity apart), ih]
  | case4 => rfl

/-- A name is read as it is, but for its line ends. -/
theorem readText_xmlEscape (input : JavaString) :
    Xml.readText (xmlEscape (some input)) = some (Xml.normalizeLines input) := by
  have free := @notMem_xmlEscape '>' (by decide) (some input)
  rw [Xml.readText, if_neg (sectionEnd_not_within free), xmlEscape,
    normalizeLines_flatMap_escapeEntity, resolveFrom_xmlEscape]

/-! ## Reading the answer -/

/-- A name of legal characters. -/
def Legal (name : Option JavaString) : Prop :=
  ∀ s ∈ name, s.all Xml.isChar = true

theorem unmarked_details {child : Properties} :
    ∀ token ∈ details child, '<' ∉ token.text ∧ ∃ s, Xml.readText token.text = some s := by
  intro token member
  rcases text_details token member with name | plain
  · rw [name]
    refine ⟨notMem_xmlEscape (by decide) _, ?_⟩
    cases child.name with
    | none => exact ⟨[], by decide⟩
    | some input => exact ⟨_, readText_xmlEscape input⟩
  · exact ⟨notMem_of_isPlain plain (by decide), _, readText_of_isPlain plain⟩

/-- The texts of an answer's elements with addresses. -/
def hrefs (items : List Xml.Item) : List JavaString :=
  Xml.textsOf (text "D:href") items

/-- Items that leave the open elements as they are. -/
def Closed (items : List Xml.Item) : Prop :=
  ∀ top below rest, Xml.balanced (top :: below) (items.map Prod.fst ++ rest) =
    Xml.balanced (top :: below) rest

/-- A response whose address is read, is read. -/
theorem exists_items_response {entry : Properties × JavaString} {value : JavaString}
    (readable : Xml.readText entry.2 = some value) :
    ∃ items, (response entry).mapM Xml.readToken = some items ∧ hrefs items = [value] ∧
      Closed items := by
  obtain ⟨items, itemsEq, tags⟩ := Xml.exists_items (readTag_details entry.1)
    fun token member => (unmarked_details token member).2
  have first : Xml.readToken (token "D:response" []) = some (opening "D:response", []) := by
    decide
  have second : Xml.readToken (token "D:href" entry.2) = some (opening "D:href", value) := by
    have tag : Xml.readTag (text "D:href") = some (opening "D:href") := by decide
    exact Xml.readToken_eq_some_iff.mpr ⟨tag, readable⟩
  refine ⟨(opening "D:response", []) :: (opening "D:href", value) :: items, ?_, ?_, ?_⟩
  · rw [response, List.mapM_cons, List.mapM_cons, first, second, itemsEq]
    rfl
  · have apart : opening "D:response" ≠ .opening (text "D:href") := by decide
    have others : hrefs items = [] := by
      apply Xml.textsOf_eq_nil
      rw [tags]
      exact opening_href_notMem_detailTags _
    rw [hrefs, Xml.textsOf_cons_of_ne apart]
    exact (Xml.textsOf_cons_self _ _ _).trans (congrArg (value :: ·) others)
  · intro top below rest
    rw [List.map_cons, List.map_cons, tags]
    exact balanced_detailTags entry.1.isCollection (top :: below) rest

theorem exists_items_responses {entries : List (Properties × JavaString)}
    {values : List JavaString}
    (readable : entries.mapM (fun entry => Xml.readText entry.2) = some values) :
    ∃ items, (entries.flatMap response).mapM Xml.readToken = some items ∧
      hrefs items = values ∧ Closed items := by
  induction entries generalizing values with
  | nil =>
      cases readable
      exact ⟨[], rfl, rfl, fun _ _ _ => rfl⟩
  | cons entry entries ih =>
      rw [List.mapM_cons] at readable
      obtain ⟨value, valueEq, rest⟩ := Option.bind_eq_some_iff.mp readable
      obtain ⟨others, othersEq, whole⟩ := Option.bind_eq_some_iff.mp rest
      cases whole
      obtain ⟨items, itemsEq, itemsHrefs, itemsClosed⟩ := exists_items_response valueEq
      obtain ⟨more, moreEq, moreHrefs, moreClosed⟩ := ih othersEq
      refine ⟨items ++ more, ?_, ?_, ?_⟩
      · rw [List.flatMap_cons, List.mapM_append, itemsEq, moreEq]
        rfl
      · rw [hrefs, Xml.textsOf_append, ← hrefs, ← hrefs, itemsHrefs, moreHrefs,
          List.singleton_append]
      · intro top below rest
        rw [List.map_append, List.append_assoc, itemsClosed, moreClosed]

theorem free_response {entry : Properties × JavaString} :
    ∀ token ∈ response entry, Xml.TagFree token.tag := by
  intro found member
  rcases List.mem_cons.mp member with rfl | member
  · exact (by decide : Xml.TagFree (text "D:response"))
  · rcases List.mem_cons.mp member with rfl | member
    · exact (by decide : Xml.TagFree (text "D:href"))
    · exact tagFree_details found member

theorem unmarked_response {entry : Properties × JavaString} (unmarked : '<' ∉ entry.2) :
    ∀ token ∈ response entry, '<' ∉ token.text := by
  intro found member
  rcases List.mem_cons.mp member with rfl | member
  · exact List.not_mem_nil
  · rcases List.mem_cons.mp member with rfl | member
    · exact unmarked
    · exact (unmarked_details found member).1

/-- The declaration and the start of the answer, as they are read. -/
def prologItems : List Xml.Item :=
  [(.declaration, []), (opening "D:multistatus", [])]

theorem mapM_prolog : prolog.mapM Xml.readToken = some prologItems := by
  decide

theorem free_prolog : ∀ token ∈ prolog, Xml.TagFree token.tag ∧ '<' ∉ token.text := by
  decide

theorem free_epilog : ∀ token ∈ epilog, Xml.TagFree token.tag ∧ '<' ∉ token.text := by
  decide

/-- An answer of legal characters whose addresses are read is well-formed, and these are
its addresses. -/
theorem read_multistatus {entries : List (Properties × JavaString)} {values : List JavaString}
    (chars : (Xml.written (multistatus entries)).all Xml.isChar = true)
    (unmarked : ∀ entry ∈ entries, '<' ∉ entry.2)
    (readable : entries.mapM (fun entry => Xml.readText entry.2) = some values) :
    ∃ items, Xml.read (Xml.written (multistatus entries)) = some items ∧ hrefs items = values := by
  obtain ⟨items, itemsEq, itemsHrefs, closed⟩ := exists_items_responses readable
  have epilogItems : epilog.mapM Xml.readToken = some [(closing "D:multistatus", [])] := by decide
  refine ⟨prologItems ++ (items ++ [(closing "D:multistatus", [])]), ?_, ?_⟩
  · apply Xml.read_written chars
    · intro found member
      rcases List.mem_append.mp member with start | member
      · exact (free_prolog found start).1
      · rcases List.mem_append.mp member with inner | finish
        · obtain ⟨entry, _, within⟩ := List.mem_flatMap.mp inner
          exact free_response found within
        · exact (free_epilog found finish).1
    · intro found member
      rcases List.mem_append.mp member with start | member
      · exact (free_prolog found start).2
      · rcases List.mem_append.mp member with inner | finish
        · obtain ⟨entry, entryMember, within⟩ := List.mem_flatMap.mp inner
          exact unmarked_response (unmarked entry entryMember) found within
        · exact (free_epilog found finish).2
    · rw [multistatus, List.mapM_append, List.mapM_append, mapM_prolog, itemsEq, epilogItems]
      rfl
    · have root := closed (text "D:multistatus") [] [closing "D:multistatus"]
      have wellFormed : Xml.balanced [text "D:multistatus"]
          ((items ++ [(closing "D:multistatus", [])]).map Prod.fst) = true := by
        rw [List.map_append]
        exact root.trans (by decide)
      have last : (items ++ [(closing "D:multistatus", ([] : JavaString))]).getLast? =
          some (closing "D:multistatus", []) := by
        rw [List.getLast?_append]
        rfl
      show (Xml.isBlank [] && Xml.balanced [text "D:multistatus"]
          ((items ++ [(closing "D:multistatus", [])]).map Prod.fst) &&
        (items ++ [(closing "D:multistatus", ([] : JavaString))]).getLast?.all
          fun item => Xml.isBlank item.2) = true
      rw [wellFormed, last]
      rfl
  · have front : hrefs prologItems = [] := by decide
    have back : hrefs [(closing "D:multistatus", [])] = [] := by decide
    rw [hrefs, Xml.textsOf_append, Xml.textsOf_append, ← hrefs, ← hrefs, ← hrefs, front, back,
      itemsHrefs, List.nil_append, List.append_nil]

/-- What is read of the address behind responses that are read. -/
theorem hrefs_of_read {before after : List (Properties × JavaString)}
    {entry : Properties × JavaString} {values : List JavaString} {items : List Xml.Item}
    (unmarked : ∀ entry ∈ before, '<' ∉ entry.2)
    (readable : before.mapM (fun entry => Xml.readText entry.2) = some values)
    (result : Xml.read (Xml.written (multistatus (before ++ entry :: after))) = some items) :
    ∃ value others, Xml.readText (entry.2.takeWhile (· ≠ '<')) = some value ∧
      hrefs items = values ++ value :: others := by
  obtain ⟨known, knownEq, knownHrefs, _⟩ := exists_items_responses readable
  have startItem : Xml.readToken (token "D:response" []) = some (opening "D:response", []) := by
    decide
  have tag : Xml.readTag (text "D:href") = some (opening "D:href") := by decide
  have split : multistatus (before ++ entry :: after) =
      (prolog ++ (before.flatMap response ++ [token "D:response" []])) ++
        token "D:href" entry.2 :: (details entry.1 ++ (after.flatMap response ++ epilog)) := by
    simp [multistatus, response]
  have frontEq : (prolog ++ (before.flatMap response ++ [token "D:response" []])).mapM
      Xml.readToken = some (prologItems ++ (known ++ [(opening "D:response", [])])) := by
    rw [List.mapM_append, List.mapM_append, mapM_prolog, knownEq, List.mapM_cons, startItem]
    rfl
  rw [split] at result
  have tokens : ∀ found ∈ prolog ++ (before.flatMap response ++ [token "D:response" []]),
      Xml.TagFree found.tag ∧ '<' ∉ found.text := by
    intro found member
    rcases List.mem_append.mp member with start | member
    · exact free_prolog found start
    · rcases List.mem_append.mp member with inner | finish
      · obtain ⟨entry, entryMember, within⟩ := List.mem_flatMap.mp inner
        exact ⟨free_response found within,
          unmarked_response (unmarked entry entryMember) found within⟩
      · rw [List.mem_singleton.mp finish]
        exact ⟨(by decide : Xml.TagFree (text "D:response")), List.not_mem_nil⟩
  have hrefFree : Xml.TagFree (token "D:href" entry.2).tag :=
    (by decide : Xml.TagFree (text "D:href"))
  obtain ⟨item, rest, itemEq, whole⟩ := Xml.read_front (fun found member => (tokens found member).1)
    (fun found member => (tokens found member).2) hrefFree frontEq result
  obtain ⟨tagEq, textEq⟩ := Xml.readToken_eq_some_iff.mp itemEq
  have itemTag : item.1 = opening "D:href" := Option.some.inj (tagEq.symm.trans tag)
  have front : hrefs prologItems = [] := by decide
  have start : hrefs [(opening "D:response", [])] = [] := by decide
  have own : hrefs (item :: rest) = item.2 :: hrefs rest := by
    obtain ⟨itemTag', itemText⟩ := item
    cases itemTag
    exact Xml.textsOf_cons_self _ _ _
  refine ⟨item.2, hrefs rest, textEq, ?_⟩
  rw [whole, hrefs, Xml.textsOf_append, Xml.textsOf_append, Xml.textsOf_append, ← hrefs,
    ← hrefs, ← hrefs, ← hrefs, front, start, own, knownHrefs, List.nil_append, List.append_nil]

end RoundSync.Safdav.Multistatus
