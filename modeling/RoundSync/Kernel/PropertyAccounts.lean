import RoundSync.Kernel.LockDiscovery
import Mathlib.Data.List.Count

/-!
# The properties of a response

A response sorts the requested properties into the values it has and the names it
misses.  Which property an element is about, a client reads from its tag: the
prefixes `D` and `oc` stand for two namespaces, and the server writes one of the
two for every name.
-/

namespace RoundSync.Kernel

open RoundSync.Text
open RoundSync.Transition
open Effect

/-! ## Reading an element -/

/-- The octets at which a name ends in a tag: a blank, a slash and `>`. -/
def endsName (b : UInt8) : Bool :=
  b = 32 || b = 47 || b = 62

/-- The qualified name in the tag with which a text begins. -/
def openTag (element : GoString) : GoString :=
  (element.drop 1).takeWhile fun b => !endsName b

/-- The name behind a qualified name, with the prefixes that `multistatusText` and the
elements themselves declare. -/
def resolve (tag : GoString) : Option XmlName :=
  let declared := tag.takeWhile (· ≠ 58)
  let localName := (tag.dropWhile (· ≠ 58)).drop 1
  if declared = str "D" then some ⟨davSpace, localName⟩
  else if declared = str "oc" then some ⟨ocSpace, localName⟩
  else none

/-- The property that an element is about. -/
def mentioned (element : GoString) : Option XmlName :=
  resolve (openTag element)

/-- The properties of the 200 propstat. -/
def PropStats.ok : PropStats → List (Option XmlName)
  | .names listed => listed.map fun pn => mentioned (emptyPropName pn)
  | .values found _ => found.map fun w => mentioned w.value

/-- The properties of the 404 propstat. -/
def PropStats.notFound : PropStats → List (Option XmlName)
  | .names _ => []
  | .values _ missing => missing.map fun pn => mentioned (emptyPropName pn)

/-- The server has a property of this name, and the entry has it. -/
def definedFor (e : Entry) (n : XmlName) : Bool :=
  livePropNames.contains n && propAllowedFor e n

/-- Every requested property is mentioned once, with its value or as missing, and no value
is given for the name of another namespace. -/
structure Accounted (names : List XmlName) (response : Response) : Prop where
  ok : ∀ n ∈ names, response.stats.ok.count (some n) =
    if definedFor response.entry n then 1 else 0
  notFound : ∀ n ∈ names, response.stats.notFound.count (some n) =
    if definedFor response.entry n then 0 else 1
  own : ∀ w ∈ response.found, ∀ live ∈ livePropNames, w.name.localName = live.localName →
    mentioned w.value = some live → w.name.space = live.space

/-- The server writes these namespaces by a prefix of their own. -/
def Prefixed (n : XmlName) : Prop :=
  n.space = davSpace ∨ n.space = ocSpace

/-- No octet ends the name in a tag. -/
def Solid (localName : GoString) : Prop :=
  localName.all (fun b => !endsName b) = true

/-! ## The tags that the server writes -/

theorem openTag_of_solid {tag rest : GoString} {b : UInt8} (solid : Solid tag)
    (ends : endsName b = true) : openTag (str "<" ++ (tag ++ b :: rest)) = tag := by
  unfold openTag
  rw [show (str "<" ++ (tag ++ b :: rest)).drop 1 = tag ++ b :: rest from rfl,
    List.takeWhile_append_of_pos (fun c mem => List.all_eq_true.mp solid c mem),
    List.takeWhile_cons, ends]
  simp

theorem mentioned_element {tag content : GoString} (solid : Solid tag) :
    mentioned (element tag content) = resolve tag := by
  have text : element tag content =
      str "<" ++ (tag ++ 62 :: (content ++ str "</" ++ tag ++ str ">")) := by
    simp only [element, List.append_assoc]
    rfl
  rw [mentioned, text, openTag_of_solid solid rfl]

theorem resolve_prefixed (declared localName : GoString) (noColon : 58 ∉ declared) :
    resolve (declared ++ 58 :: localName) =
      if declared = str "D" then some ⟨davSpace, localName⟩
      else if declared = str "oc" then some ⟨ocSpace, localName⟩ else none := by
  have before : ∀ b ∈ declared, (b ≠ 58) = true := by
    intro b mem
    simp only [eq_iff_iff, iff_true]
    rintro rfl
    exact noColon mem
  unfold resolve
  rw [List.takeWhile_append_of_pos (by simpa using before),
    List.dropWhile_append_of_pos (by simpa using before)]
  simp

/-- A missing property is mentioned under one of the two namespaces. -/
theorem mentioned_emptyPropName {pn : XmlName} (solid : Solid pn.localName) :
    mentioned (emptyPropName pn) =
      some ⟨if pn.space = ocSpace then ocSpace else davSpace, pn.localName⟩ := by
  unfold emptyPropName
  split
  · have text : str "<oc:" ++ pn.localName ++ str " xmlns:oc=\"http://owncloud.org/ns\"" ++ str "/>" =
        str "<" ++ ((str "oc" ++ 58 :: pn.localName) ++
          32 :: (str "xmlns:oc=\"http://owncloud.org/ns\"" ++ str "/>")) := by
      rw [List.append_assoc, List.append_assoc]
      rfl
    have tagSolid : Solid (str "oc" ++ 58 :: pn.localName) := by
      rw [Solid, List.all_append, List.all_cons, solid]
      decide
    rw [mentioned, text, openTag_of_solid tagSolid rfl, resolve_prefixed _ _ (by decide),
      if_neg (by decide), if_pos rfl]
  · have text : str "<D:" ++ pn.localName ++ str "/>" =
        str "<" ++ ((str "D" ++ 58 :: pn.localName) ++ 47 :: str ">") := by
      rw [List.append_assoc]
      rfl
    have tagSolid : Solid (str "D" ++ 58 :: pn.localName) := by
      rw [Solid, List.all_append, List.all_cons, solid]
      decide
    rw [mentioned, text, openTag_of_solid tagSolid rfl, resolve_prefixed _ _ (by decide),
      if_pos rfl]

/-! ## One value -/

/-- What `writePropValue` compares. -/
def joined (n : XmlName) : GoString :=
  n.space ++ n.localName

/-- A name is answered as the property with which it agrees when namespace and local name
are put together. -/
def AnsweredAs (pn : XmlName) : Option GoString → Prop
  | none => ∀ live ∈ livePropNames, joined pn ≠ joined live
  | some value => ∃ live ∈ livePropNames, joined pn = joined live ∧ mentioned value = some live

section

variable (site : PropfindSite)

theorem writePropValue_answers (pn : XmlName) (e : Entry) (userAgent : GoString) (s : Session) :
    Ensures (writePropValue site pn e userAgent) s (fun value _ => AnsweredAs pn value)
      fun _ _ => False := by
  have answers : ∀ (live : XmlName) (value : GoString), live ∈ livePropNames →
      mentioned value = some live → joined pn = joined live →
      Ensures (pure (some value) : Propfind (Option GoString)) s
        (fun value _ => AnsweredAs pn value) fun _ _ => False :=
    fun live value mem isMentioned same => ⟨live, mem, same, isMentioned⟩
  unfold writePropValue
  refine .ite (answers ⟨davSpace, str "resourcetype"⟩ _ (by decide) (mentioned_element rfl))
    fun resourcetype => ?_
  refine .ite (answers ⟨davSpace, str "displayname"⟩ _ (by decide) (mentioned_element rfl))
    fun displayname => ?_
  refine .ite (answers ⟨davSpace, str "getcontentlength"⟩ _ (by decide) (mentioned_element rfl))
    fun getcontentlength => ?_
  refine .ite (answers ⟨davSpace, str "getlastmodified"⟩ _ (by decide) (mentioned_element rfl))
    fun getlastmodified => ?_
  refine .ite (answers ⟨davSpace, str "creationdate"⟩ _ (by decide) (mentioned_element rfl))
    fun creationdate => ?_
  refine .ite (answers ⟨davSpace, str "getcontenttype"⟩ _ (by decide) (mentioned_element rfl))
    fun getcontenttype => ?_
  refine .ite (answers ⟨davSpace, str "getetag"⟩ _ (by decide) (mentioned_element rfl))
    fun getetag => ?_
  refine .ite (answers ⟨davSpace, str "supportedlock"⟩ _ (by decide) (mentioned_element rfl))
    fun supportedlock => ?_
  refine .ite (fun same => ?_) fun discovery => ?_
  · rw [ensures_bind]
    exact ⟨lockdiscovery, by decide, same, mentioned_element rfl⟩
  refine .ite (fun same => ?_) fun checksums => ?_
  · refine answers ⟨ocSpace, str "checksums"⟩ _ (by decide) ?_ same
    have text : ∀ rest : GoString, str "<oc:checksums xmlns:oc=\"" ++ ocSpace ++ str "\">" ++ rest =
        str "<" ++ (str "oc:checksums" ++ 32 :: (str "xmlns:oc=\"" ++ ocSpace ++ str "\">" ++ rest)) :=
      fun rest => rfl
    have solid : Solid (str "oc:checksums") := rfl
    rw [List.append_assoc, text, mentioned, openTag_of_solid solid rfl]
    rfl
  · rw [ensures_pure]
    unfold AnsweredAs
    simp only [livePropNames, List.forall_mem_cons]
    exact ⟨resourcetype, displayname, getcontentlength, getlastmodified, creationdate,
      getcontenttype, getetag, supportedlock, discovery, checksums, nofun⟩

/-! ## The values and the missing names -/

/-- How requested names become values and missing names, one after another. -/
inductive Parted (e : Entry) : List XmlName → List Written → List XmlName → Prop
  | nil : Parted e [] [] []
  | found {names : List XmlName} {found : List Written} {missing : List XmlName} (w : Written)
      (allowed : propAllowedFor e w.name = true) (answers : AnsweredAs w.name (some w.value))
      (rest : Parted e names found missing) : Parted e (w.name :: names) (w :: found) missing
  | missing {names : List XmlName} {found : List Written} {missing : List XmlName} (pn : XmlName)
      (lacks : propAllowedFor e pn = false ∨ AnsweredAs pn none)
      (rest : Parted e names found missing) : Parted e (pn :: names) found (pn :: missing)

theorem writePropValues_parted (e : Entry) (userAgent : GoString) (names : List XmlName)
    (s : Session) :
    Ensures (writePropValues site e userAgent names) s
      (fun result _ => Parted e names result.1 result.2) fun _ _ => False := by
  induction names generalizing s with
  | nil => exact .nil
  | cons pn names inductionHypothesis =>
      unfold writePropValues
      refine .ite (fun allowed => ?_) fun forbidden => ?_
      · rw [ensures_bind, yieldToOthers, ensures_update, ensures_bind, ensures_read, ensures_bind]
        refine (writePropValue_answers site pn e userAgent _).mono ?_
          fun _ _ impossible => impossible
        intro value between answers
        rw [ensures_bind]
        refine (inductionHypothesis between).mono ?_ fun _ _ impossible => impossible
        rintro ⟨found, missing⟩ reached parted
        cases value with
        | none => exact .missing pn (.inr answers) parted
        | some value => exact .found ⟨pn, value, _⟩ allowed answers parted
      · rw [ensures_bind]
        refine (inductionHypothesis s).mono ?_ fun _ _ impossible => impossible
        rintro ⟨found, missing⟩ reached parted
        exact .missing pn (.inl (Bool.eq_false_iff.mpr forbidden)) parted

/-- A response to a request with a list of properties parts them. -/
def Parts (names : List XmlName) (response : Response) : Prop :=
  ∃ found missing, response.stats = .values found missing ∧
    Parted response.entry names found missing

theorem writePropfindResponse_parts {pf : PropfindReq}
    (lists : pf.propname = false ∧ pf.allprop = false) (userAgent path : GoString) (e : Entry)
    (s : Session) :
    Ensures (writePropfindResponse site pf userAgent path e) s
      (fun response _ => Parts pf.props response) fun _ _ => False := by
  unfold writePropfindResponse
  simp only [lists.1, lists.2, Bool.false_eq_true, if_false]
  rw [ensures_bind]
  refine (writePropValues_parted site e userAgent pf.props s).mono ?_
    fun _ _ impossible => impossible
  rintro ⟨found, missing⟩ reached parted
  exact ⟨found, missing, rfl, parted⟩

end

/-! ## The account -/

section

variable {e : Entry} {names : List XmlName} {found : List Written} {missing : List XmlName}

theorem prefixed_of_live : ∀ live ∈ livePropNames, Prefixed live := by
  unfold Prefixed
  decide

/-- For a name of the two namespaces its parts can be told from the joined name. -/
theorem eq_of_joined {first second : XmlName} (firstPrefixed : Prefixed first)
    (secondPrefixed : Prefixed second) (same : joined first = joined second) : first = second := by
  obtain ⟨space, localName⟩ := first
  obtain ⟨otherSpace, otherName⟩ := second
  unfold joined at same
  rcases firstPrefixed with rfl | rfl
  · rcases secondPrefixed with rfl | rfl
    · have sameName : localName = otherName := List.append_cancel_left same
      rw [sameName]
    · cases same
  · rcases secondPrefixed with rfl | rfl
    · cases same
    · have sameName : localName = otherName := List.append_cancel_left same
      rw [sameName]

theorem definedFor_of_answers {pn : XmlName} {value : GoString} (isPrefixed : Prefixed pn)
    (allowed : propAllowedFor e pn = true) (answers : AnsweredAs pn (some value)) :
    definedFor e pn = true ∧ mentioned value = some pn := by
  obtain ⟨live, mem, same, isMentioned⟩ := answers
  have isLive := eq_of_joined isPrefixed (prefixed_of_live live mem) same
  rw [isLive] at allowed ⊢
  refine ⟨?_, isMentioned⟩
  rw [definedFor, allowed, Bool.and_true]
  exact List.contains_iff_mem.mpr mem

theorem not_definedFor_of_lacks {pn : XmlName}
    (lacks : propAllowedFor e pn = false ∨ AnsweredAs pn none) : definedFor e pn = false := by
  unfold definedFor
  rcases lacks with forbidden | unknown
  · rw [forbidden, Bool.and_false]
  · rw [Bool.and_eq_false_iff]
    left
    rw [← Bool.not_eq_true, List.contains_iff_mem]
    intro mem
    exact unknown pn mem rfl

theorem mentioned_missing {pn : XmlName} (isPrefixed : Prefixed pn) (solid : Solid pn.localName) :
    mentioned (emptyPropName pn) = some pn := by
  rw [mentioned_emptyPropName solid]
  obtain ⟨space, localName⟩ := pn
  rcases isPrefixed with rfl | rfl
  · rfl
  · rfl

/-- Under known prefixes the values are about the defined names, and the missing names
are the others. -/
theorem Parted.mentions (parted : Parted e names found missing)
    (prefixed : ∀ n ∈ names, Prefixed n) (solid : ∀ n ∈ names, Solid n.localName) :
    found.map (fun w => mentioned w.value) = (names.filter (definedFor e)).map some ∧
      missing.map (fun pn => mentioned (emptyPropName pn)) =
        (names.filter fun n => !definedFor e n).map some := by
  induction parted with
  | nil => exact ⟨rfl, rfl⟩
  | found w allowed answers rest inductionHypothesis =>
      rw [List.forall_mem_cons] at prefixed solid
      obtain ⟨values, others⟩ := inductionHypothesis prefixed.2 solid.2
      obtain ⟨isDefined, isMentioned⟩ := definedFor_of_answers prefixed.1 allowed answers
      constructor
      · rw [List.map_cons, values, isMentioned, List.filter_cons_of_pos isDefined]
        rfl
      · rw [others, List.filter_cons_of_neg (by simp [isDefined])]
  | missing pn lacks rest inductionHypothesis =>
      rw [List.forall_mem_cons] at prefixed solid
      obtain ⟨values, others⟩ := inductionHypothesis prefixed.2 solid.2
      have undefined := not_definedFor_of_lacks lacks
      constructor
      · rw [values, List.filter_cons_of_neg (by simp [undefined])]
      · rw [List.map_cons, others, mentioned_missing prefixed.1 solid.1,
          List.filter_cons_of_pos (by simp [undefined])]
        rfl

/-- Nothing is ever mentioned under another namespace. -/
theorem Parted.prefixed (parted : Parted e names found missing)
    (solid : ∀ n ∈ names, Solid n.localName) {n : XmlName}
    (isMentioned : some n ∈ found.map (fun w => mentioned w.value) ∨
      some n ∈ missing.map fun pn => mentioned (emptyPropName pn)) : Prefixed n := by
  induction parted with
  | nil =>
      rcases isMentioned with mem | mem
      · cases mem
      · cases mem
  | found w allowed answers rest inductionHypothesis =>
      rw [List.forall_mem_cons] at solid
      rw [List.map_cons, List.mem_cons] at isMentioned
      rcases isMentioned with (here | there) | mem
      · obtain ⟨live, isLive, _, same⟩ := answers
        rw [same, Option.some.injEq] at here
        rw [here]
        exact prefixed_of_live live isLive
      · exact inductionHypothesis solid.2 (.inl there)
      · exact inductionHypothesis solid.2 (.inr mem)
  | missing pn lacks rest inductionHypothesis =>
      rw [List.forall_mem_cons] at solid
      rw [List.map_cons, List.mem_cons] at isMentioned
      rcases isMentioned with mem | here | there
      · exact inductionHypothesis solid.2 (.inl mem)
      · rw [mentioned_emptyPropName solid.1, Option.some.injEq] at here
        rw [here]
        unfold Prefixed
        simp only
        split
        · exact .inr rfl
        · exact .inl rfl
      · exact inductionHypothesis solid.2 (.inr there)

/-- A value for the local name of a property is the value of this property. -/
theorem Parted.own (parted : Parted e names found missing) :
    ∀ w ∈ found, ∀ live ∈ livePropNames, w.name.localName = live.localName →
      mentioned w.value = some live → w.name.space = live.space := by
  induction parted with
  | nil => exact nofun
  | found w allowed answers rest inductionHypothesis =>
      refine List.forall_mem_cons.mpr ⟨?_, inductionHypothesis⟩
      intro live _ sameName isMentioned
      obtain ⟨other, _, same, isOther⟩ := answers
      rw [isMentioned, Option.some.injEq] at isOther
      rw [← isOther, joined, joined, sameName] at same
      exact List.append_cancel_right same
  | missing pn lacks rest inductionHypothesis => exact inductionHypothesis

theorem count_map_some_filter (distinct : names.Nodup) (test : XmlName → Bool) {n : XmlName}
    (mem : n ∈ names) :
    ((names.filter test).map some).count (some n) = if test n then 1 else 0 := by
  rw [List.count_map_of_injective _ _ (Option.some_injective XmlName)]
  split
  · rename_i passes
    rw [List.count_filter passes]
    exact List.count_eq_one_of_mem distinct mem
  · rename_i fails
    exact List.count_eq_zero_of_not_mem fun inside => fails (List.mem_filter.mp inside).2

end

/-- XML names, as a parser reads them. -/
def ReadsNames (unmarshal : GoString → Option PropfindReq) : Prop :=
  ∀ body pf, unmarshal body = some pf → ∀ n ∈ pf.props, Solid n.localName

theorem accounted_iff {names : List XmlName} (distinct : names.Nodup)
    (solid : ∀ n ∈ names, Solid n.localName) {response : Response} (parts : Parts names response) :
    Accounted names response ↔ ∀ n ∈ names, Prefixed n := by
  obtain ⟨found, missing, stats, parted⟩ := parts
  constructor
  · intro accounted n mem
    apply parted.prefixed solid
    have ok := accounted.ok n mem
    have notFound := accounted.notFound n mem
    rw [stats] at ok notFound
    cases isDefined : definedFor response.entry n with
    | true =>
        rw [isDefined] at ok
        exact .inl (List.count_pos_iff.mp (by rw [PropStats.ok] at ok; rw [ok]; decide))
    | false =>
        rw [isDefined] at notFound
        exact .inr (List.count_pos_iff.mp (by rw [PropStats.notFound] at notFound; rw [notFound]; decide))
  · intro prefixed
    obtain ⟨values, others⟩ := parted.mentions prefixed solid
    constructor
    · intro n mem
      rw [stats, PropStats.ok, values, count_map_some_filter distinct _ mem]
    · intro n mem
      rw [stats, PropStats.notFound, others, count_map_some_filter distinct _ mem]
      cases definedFor response.entry n with
      | true => rfl
      | false => rfl
    · rw [Response.found, stats]
      exact parted.own

/-- A response accounts for the requested properties exactly when they all are of the two
namespaces for which the server has a prefix. -/
theorem properties_accounted_iff (site : PropfindSite) (reads : ReadsNames site.unmarshal)
    (bound : Nat) (s : Session) (r : PropfindRequest) (reqPath : GoString) {pf : PropfindReq}
    (isRead : readPropfind site.unmarshal r.body.data = some pf)
    (lists : pf.propname = false ∧ pf.allprop = false) (distinct : pf.props.Nodup)
    {responses : List Response}
    (answered : (handlePropfind site bound r reqPath s).1 = .ok (some (.multistatus responses)))
    {response : Response} (member : response ∈ responses) :
    Accounted pf.props response ↔ ∀ n ∈ pf.props, Prefixed n := by
  have solid : ∀ n ∈ pf.props, Solid n.localName := by
    unfold readPropfind at isRead
    split at isRead
    · cases isRead
      exact nofun
    · obtain ⟨parsed, isParsed, rfl⟩ := Option.map_eq_some_iff.mp isRead
      intro n mem
      apply reads _ parsed isParsed
      split at mem
      · exact mem
      · exact mem
  apply accounted_iff distinct solid
  refine handlePropfind_visits site (fun _ => True) (Parts pf.props) (fun _ _ _ => trivial) bound r
    reqPath isRead ?_ trivial answered member
  intro path e s _
  exact (writePropfindResponse_parts site lists r.userAgent path e s).mono
    (fun _ _ parts => ⟨trivial, parts⟩) fun _ _ impossible => impossible.elim

/-! ## A known and an unknown namespace -/

/-- Some response of an answer passes the test. -/
def hasResponse (test : Response → Bool) : Except DriveError (Option PropfindAnswer) → Bool
  | .ok (some (.multistatus responses)) => responses.any test
  | _ => false

theorem exists_of_hasResponse {test : Response → Bool}
    {answer : Except DriveError (Option PropfindAnswer)} (has : hasResponse test answer = true) :
    ∃ responses, answer = .ok (some (.multistatus responses)) ∧
      ∃ response ∈ responses, test response = true := by
  unfold hasResponse at has
  split at has
  · rename_i responses
    obtain ⟨response, member, passes⟩ := List.any_eq_true.mp has
    exact ⟨responses, rfl, response, member, passes⟩
  · cases has

/-- A site whose clients ask for these properties. -/
def siteAsking (names : List XmlName) : PropfindSite :=
  { quietSite with unmarshal := fun _ => some ⟨false, false, names⟩ }

def askRoot : PropfindRequest :=
  ⟨str "0", [], ⟨str "<propfind/>", none⟩⟩

def freshSession : Session :=
  ⟨World.fresh .empty, LockState.initial 1, 0⟩

/-- A property that the server has, and one that it does not have. -/
def davNames : List XmlName :=
  [⟨davSpace, str "displayname"⟩, ⟨davSpace, str "quota-used-bytes"⟩]

theorem davNames_accounted :
    ∃ responses, ∃ response ∈ responses,
      (handlePropfind (siteAsking davNames) 1 askRoot (str "/") freshSession).1 =
        .ok (some (.multistatus responses)) ∧
      (Accounted davNames response ↔ ∀ n ∈ davNames, Prefixed n) := by
  have has : hasResponse (fun _ => true)
      (handlePropfind (siteAsking davNames) 1 askRoot (str "/") freshSession).1 = true := by
    decide
  obtain ⟨responses, answered, response, member, _⟩ := exists_of_hasResponse has
  refine ⟨responses, response, member, answered,
    properties_accounted_iff (siteAsking davNames) ?_ 1 freshSession askRoot (str "/") rfl
      ⟨rfl, rfl⟩ (by decide) answered member⟩
  rintro _ _ ⟨⟩ n mem
  have solid : ∀ n ∈ davNames, Solid n.localName := by
    unfold Solid
    decide
  exact solid n mem

def foreignColor : XmlName :=
  ⟨str "urn:x", str "color"⟩

/-- A missing property of another namespace is mentioned as one of `DAV:`. -/
theorem foreignColor_not_accounted :
    ∃ responses, ∃ response ∈ responses,
      (handlePropfind (siteAsking [foreignColor]) 1 askRoot (str "/") freshSession).1 =
        .ok (some (.multistatus responses)) ∧
      response.stats.notFound = [some ⟨davSpace, str "color"⟩] ∧
      ¬Accounted [foreignColor] response := by
  have has : hasResponse
      (fun response => response.stats.notFound = [some ⟨davSpace, str "color"⟩] ∧
        definedFor response.entry foreignColor = false)
      (handlePropfind (siteAsking [foreignColor]) 1 askRoot (str "/") freshSession).1 = true := by
    decide
  obtain ⟨responses, answered, response, member, passes⟩ := exists_of_hasResponse has
  obtain ⟨mentions, undefined⟩ := of_decide_eq_true passes
  refine ⟨responses, response, member, answered, mentions, fun accounted => ?_⟩
  have once := accounted.notFound foreignColor List.mem_cons_self
  rw [mentions, undefined] at once
  exact absurd once (by decide)

end RoundSync.Kernel
