import RoundSync.Quarkcookie.CookieLine
import RoundSync.Quarkcookie.Parts

/-!
# The listing of a folder

`List` asks the server for one page of a folder after another until it has the
announced total or a page comes back empty.  Against a server that cuts its
listing into the pages it is asked for, the loop ends with all entries.
-/

namespace RoundSync.Quarkcookie.Listing

open RoundSync.Text
open RoundSync.Kernel
open RoundSync.Quarkcookie.Cookies

/-! ## The requests -/

/-- A parameter of a query, as it is or printed by `strconv.Itoa`. -/
inductive Value where
  | text (value : GoString)
  | itoa (value : Int)
  deriving DecidableEq

abbrev Query := List (GoString × Value)

def quarkUA : GoString :=
  str "Mozilla/5.0 (Windows NT 10.0; Win64; x64) AppleWebKit/537.36 (KHTML, like Gecko) " ++
    str "quark-cloud-drive/2.5.20 Chrome/100.0.4896.160 Electron/18.3.5.4-b478491100 " ++
    str "Safari/537.36 Channel/pckk_other_ch"

def ucUA : GoString :=
  str "Mozilla/5.0 (Windows NT 10.0; Win64; x64) AppleWebKit/537.36 (KHTML, like Gecko) " ++
    str "uc-cloud-drive/2.5.20 Chrome/100.0.4896.160 Electron/18.3.5.4-b478491100 " ++
    str "Safari/537.36 Channel/pckk_other_ch"

structure Client where
  cfg : CookieConfig
  ua : GoString
  referer : GoString
  api : GoString
  pr : GoString

def New (cfg : CookieConfig) : Client :=
  if toLower (trimSpace cfg.brand) = str "uc" then
    ⟨cfg, ucUA, str "https://drive.uc.cn", str "https://pc-api.uc.cn/1/clouddrive",
      str "UCBrowser"⟩
  else
    ⟨cfg, quarkUA, str "https://pan.quark.cn", str "https://drive.quark.cn/1/clouddrive",
      str "ucpro"⟩

/-- A `GET` request as it leaves the client. -/
structure Request where
  url : GoString
  query : Query
  cookie : GoString
  referer : GoString
  userAgent : GoString

structure Response where
  statusCode : Int
  status : GoString
  cookies : List ResponseCookie
  raw : GoString

structure RespStatus where
  status : Int
  code : Int
  message : GoString

structure FileItem where
  fid : GoString
  fileName : GoString
  category : Int
  size : Int
  lCreatedAt : Int
  lUpdatedAt : Int
  file : Bool
  createdAt : Int
  updatedAt : Int
  deriving DecidableEq

/-- What `List` reads of the reply to `/file/sort`. -/
structure SortResp where
  list : List FileItem
  total : Int

/-- The library: JSON texts and HTML entities. -/
structure Library where
  /-- what `Unmarshal` leaves in the status whose error is dropped -/
  respStatus : GoString → RespStatus
  sortResp : GoString → Except GoString SortResp
  unescapeString : GoString → GoString

/-- The server behind the transport.  The requests of one listing differ in their page,
so an answer may also depend on what was asked before. -/
abbrev Transport := Request → Except GoString Response

/-- `request` without a body, for a reply to `/file/sort`. -/
def request (library : Library) (transport : Transport) (c : Client) (pathname : GoString)
    (query : Query) : Except GoString SortResp × Client :=
  let sent : Request :=
    ⟨c.api ++ pathname, (str "pr", .text c.pr) :: (str "fr", .text (str "pc")) :: query,
      c.cfg.cookie, c.referer, c.ua⟩
  match transport sent with
  | .error err => (.error err, c)
  | .ok resp =>
      let c := { c with cfg := refreshCookie c.cfg resp.cookies }
      let st := library.respStatus resp.raw
      if 400 ≤ resp.statusCode ∨ 400 ≤ st.status ∨ st.code ≠ 0 then
        let msg := if st.message = [] then trimSpace resp.raw else st.message
        (.error (if msg = [] then resp.status else msg), c)
      else if resp.raw = [] then (.ok ⟨[], 0⟩, c)
      else (library.sortResp resp.raw, c)

/-! ## The loop -/

inductive GoTime where
  | now
  | unixMilli (milliseconds : Int)
  deriving DecidableEq

def unixMilli (primary fallback : Int) : GoTime :=
  let v := if primary = 0 then fallback else primary
  if v = 0 then .now else .unixMilli v

/-- What `List` sets of `drive.Entry`. -/
structure DriveEntry where
  id : GoString
  name : GoString
  size : Int
  category : Int
  isDir : Bool
  modTime : GoTime
  createTime : GoTime
  deriving DecidableEq

def entryOf (library : Library) (f : FileItem) : DriveEntry where
  id := f.fid
  name := library.unescapeString f.fileName
  size := f.size
  category := f.category
  isDir := !f.file
  modTime := unixMilli f.updatedAt f.lUpdatedAt
  createTime := unixMilli f.createdAt f.lCreatedAt

/-- The filter of the listing: folders and videos, or everything. -/
def listed (cfg : CookieConfig) (f : FileItem) : Bool :=
  !(cfg.onlyListVideoFile && f.file && f.category != 1)

def size : Int := 100

def baseQuery (cfg : CookieConfig) (parentId : GoString) : Query :=
  [(str "pdir_fid", .text parentId), (str "_size", .itoa size),
    (str "_fetch_total", .text (str "1")), (str "fetch_all_file", .text (str "1")),
    (str "fetch_risk_file_name", .text (str "1"))] ++
  if cfg.orderBy ≠ [] ∧ cfg.orderBy ≠ str "none" then
    [(str "_sort", .text (str "file_type:asc," ++ cfg.orderBy ++ str ":" ++ cfg.orderDirection))]
  else []

/-- The loop from some page on, with what it has appended so far; nothing where the
fuel does not suffice. -/
def listPages (platform : Platform) (library : Library) (transport : Transport)
    (query : Query) : Nat → Int → List DriveEntry → Client →
    Option (Except GoString (List DriveEntry) × Client)
  | 0, _, _, _ => none
  | fuel + 1, page, out, c =>
      match request library transport c (str "/file/sort")
          (query ++ [(str "_page", .itoa page)]) with
      | (.error err, c) => some (.error err, c)
      | (.ok sr, c) =>
          let out := out ++ (sr.list.filter (listed c.cfg)).map (entryOf library)
          if sr.total ≤ platform.int (page * size) ∨ sr.list = [] then some (.ok out, c)
          else listPages platform library transport query fuel (platform.int (page + 1)) out c

/-- `List` of the client. -/
def list (platform : Platform) (library : Library) (transport : Transport) (fuel : Nat)
    (c : Client) (parentId : GoString) : Option (Except GoString (List DriveEntry) × Client) :=
  listPages platform library transport (baseQuery c.cfg parentId) fuel 1 [] c

/-! ## Pages -/

section

variable {α : Type} {entries : List α} {width : Nat}

/-- The page of this number; the first page has the number one. -/
def page (entries : List α) (width number : Nat) : List α :=
  (entries.drop ((number - 1) * width)).take width

/-- The entries of the first pages. -/
def firstPages (entries : List α) (width pages : Nat) : List α :=
  entries.take (pages * width)

theorem firstPages_zero : firstPages entries width 0 = [] := by
  simp [firstPages]

theorem firstPages_succ (pages : Nat) :
    firstPages entries width (pages + 1) =
      firstPages entries width pages ++ page entries width (pages + 1) := by
  rw [firstPages, firstPages, page, Nat.succ_mul, List.take_add, Nat.add_sub_cancel]

theorem firstPages_of_length_le {pages : Nat} (all : entries.length ≤ pages * width) :
    firstPages entries width pages = entries :=
  List.take_of_length_le all

/-- A page is empty when the pages before it have all entries. -/
theorem page_eq_nil_iff (positive : 0 < width) (pages : Nat) :
    page entries width (pages + 1) = [] ↔ entries.length ≤ pages * width := by
  rw [page, Nat.add_sub_cancel, List.take_eq_nil_iff, List.drop_eq_nil_iff]
  constructor
  · rintro (none | all)
    · omega
    · exact all
  · exact Or.inr

end

/-! ## A server of pages -/

/-- The reply is accepted and read as this page. -/
structure Answers (library : Library) (reply : Except GoString Response) (sr : SortResp) :
    Prop where
  accepted : ∃ resp, reply = .ok resp ∧ resp.statusCode < 400 ∧
    (library.respStatus resp.raw).status < 400 ∧ (library.respStatus resp.raw).code = 0 ∧
    resp.raw ≠ [] ∧ library.sortResp resp.raw = .ok sr

/-- The parameters of the request for a page of this folder. -/
def pageQuery (c : Client) (parentId : GoString) (number : Int) : Query :=
  (str "pr", .text c.pr) :: (str "fr", .text (str "pc")) ::
    (baseQuery c.cfg parentId ++ [(str "_page", .itoa number)])

/-- The server answers the requests for the folder with the pages of its entries, of the
size in the request, and with their number. -/
def Serves (library : Library) (transport : Transport) (c : Client) (parentId : GoString)
    (entries : List FileItem) : Prop :=
  ∀ (number : Nat) (sent : Request), 1 ≤ number → sent.url = c.api ++ str "/file/sort" →
    sent.query = pageQuery c parentId number →
      Answers library (transport sent) ⟨page entries size.toNat number, entries.length⟩

/-- The client may have got another cookie, and nothing else. -/
structure Refreshed (before after : Client) : Prop where
  onlyListVideoFile : after.cfg.onlyListVideoFile = before.cfg.onlyListVideoFile
  api : after.api = before.api
  pr : after.pr = before.pr

theorem refreshOne_onlyListVideoFile (name : GoString) (cfg : CookieConfig)
    (cookies : List ResponseCookie) :
    (refreshOne name cfg cookies).onlyListVideoFile = cfg.onlyListVideoFile := by
  unfold refreshOne
  split <;> rfl

theorem refreshCookie_onlyListVideoFile (cfg : CookieConfig) (cookies : List ResponseCookie) :
    (refreshCookie cfg cookies).onlyListVideoFile = cfg.onlyListVideoFile := by
  rw [refreshCookie]
  split
  · rw [refreshOne_onlyListVideoFile, refreshOne_onlyListVideoFile]
  · exact refreshOne_onlyListVideoFile puus cfg cookies

theorem Refreshed.listed {before after : Client} (refreshed : Refreshed before after) :
    listed after.cfg = listed before.cfg := by
  funext f
  rw [Listing.listed, Listing.listed, refreshed.onlyListVideoFile]

section

variable {platform : Platform} {library : Library} {transport : Transport} {start c : Client}
  {parentId : GoString} {entries : List FileItem}

/-- One request reads one page. -/
theorem request_page (serves : Serves library transport start parentId entries)
    (refreshed : Refreshed start c) (pages : Nat) :
    ∃ next, Refreshed start next ∧
      request library transport c (str "/file/sort")
          (baseQuery start.cfg parentId ++ [(str "_page", .itoa ((pages : Int) + 1))]) =
        (.ok ⟨page entries 100 (pages + 1), entries.length⟩, next) := by
  have asked := serves (pages + 1)
    ⟨c.api ++ str "/file/sort", pageQuery start parentId ((pages + 1 : Nat) : Int),
      c.cfg.cookie, c.referer, c.ua⟩ (Nat.le_add_left 1 pages) (by rw [refreshed.api]) rfl
  obtain ⟨resp, reply, accepted, status, code, nonempty, read⟩ := asked.accepted
  refine ⟨{ c with cfg := refreshCookie c.cfg resp.cookies }, ?_, ?_⟩
  · constructor
    · rw [refreshCookie_onlyListVideoFile, refreshed.onlyListVideoFile]
    · exact refreshed.api
    · exact refreshed.pr
  · rw [pageQuery, ← refreshed.pr, Int.natCast_add, Int.natCast_one] at reply
    have good : ¬(400 ≤ resp.statusCode ∨ 400 ≤ (library.respStatus resp.raw).status ∨
        (library.respStatus resp.raw).code ≠ 0) := by
      omega
    simp only [request, reply, if_neg good, if_neg nonempty, read]
    rfl

/-- What the pages read so far have appended. -/
def appended (library : Library) (cfg : CookieConfig) (entries : List FileItem) (pages : Nat) :
    List DriveEntry :=
  ((firstPages entries 100 pages).filter (listed cfg)).map (entryOf library)

theorem appended_succ (cfg : CookieConfig) (pages : Nat) :
    appended library cfg entries (pages + 1) =
      appended library cfg entries pages ++
        ((page entries 100 (pages + 1)).filter (listed cfg)).map (entryOf library) := by
  rw [appended, appended, firstPages_succ, List.filter_append, List.map_append]

theorem appended_all {cfg : CookieConfig} {pages : Nat} (all : entries.length ≤ pages * 100) :
    appended library cfg entries pages =
      (entries.filter (listed cfg)).map (entryOf library) := by
  rw [appended, firstPages_of_length_le all]

/-- The loop stops only when it has all entries. -/
theorem all_of_stop {pages : Nat}
    (stop : (entries.length : Int) ≤ platform.int (((pages : Int) + 1) * size) ∨
      page entries 100 (pages + 1) = []) :
    entries.length ≤ (pages + 1) * 100 := by
  rcases stop with reached | empty
  · have within := int_le platform ((pages + 1) * 100)
    have same : (((pages + 1) * 100 : Nat) : Int) = ((pages : Int) + 1) * size := by
      push_cast
      rfl
    rw [same] at within
    simp only [size] at reached within
    omega
  · have all := (page_eq_nil_iff (by decide) pages).mp empty
    omega

/-- The loop on what is left of the pages.  The induction is on the fuel, which is enough
for the pages that are left and an empty one. -/
theorem listPages_complete (fits : entries.length < 2 ^ (platform.word.bits - 1))
    (serves : Serves library transport start parentId entries) (fuel : Nat) :
    ∀ (pages : Nat) (c : Client), Refreshed start c → pages * 100 < entries.length + 100 →
      entries.length ≤ (pages + fuel) * 100 →
      ∃ next, Refreshed start next ∧
        listPages platform library transport (baseQuery start.cfg parentId) (fuel + 1)
            ((pages : Int) + 1) (appended library start.cfg entries pages) c =
          some (.ok ((entries.filter (listed start.cfg)).map (entryOf library)), next) := by
  induction fuel with
  | zero =>
      intro pages c refreshed _ enough
      obtain ⟨next, kept, answer⟩ := request_page serves refreshed pages
      have all : entries.length ≤ pages * 100 := by omega
      have empty := (page_eq_nil_iff (by decide) pages).mpr all
      refine ⟨next, kept, ?_⟩
      simp only [listPages, answer, empty, or_true, if_true]
      rw [appended_all all, List.filter_nil, List.map_nil, List.append_nil]
  | succ fuel inductionHypothesis =>
      intro pages c refreshed begun enough
      obtain ⟨next, kept, answer⟩ := request_page serves refreshed pages
      rw [listPages, answer]
      simp only
      rw [kept.listed, ← appended_succ]
      split
      · rename_i stop
        refine ⟨next, kept, ?_⟩
        rw [appended_all (all_of_stop stop)]
      · rename_i further
        rw [not_or] at further
        have more : pages * 100 < entries.length := by
          have nonempty := further.2
          rw [page_eq_nil_iff (by decide)] at nonempty
          omega
        have number : platform.int ((pages : Int) + 1 + 1) = ((pages + 1 : Nat) : Int) + 1 := by
          have small : pages + 2 < 2 ^ (platform.word.bits - 1) := by
            have large : 128 < 2 ^ (platform.word.bits - 1) := by
              cases platform.word with
              | bits32 => decide
              | bits64 => decide
            omega
          exact (int_eq_iff platform (pages + 2)).mpr small
        rw [number]
        exact inductionHypothesis (pages + 1) next kept (by omega) (by omega)

/-- The listing of a folder has every entry that its filter leaves once, in the order of
the server, after at most one request more than there are pages. -/
theorem list_complete (fits : entries.length < 2 ^ (platform.word.bits - 1))
    (serves : Serves library transport start parentId entries) {fuel : Nat}
    (enough : entries.length / 100 + 2 ≤ fuel) :
    ∃ next, Refreshed start next ∧
      list platform library transport fuel start parentId =
        some (.ok ((entries.filter (listed start.cfg)).map (entryOf library)), next) := by
  obtain ⟨fuel, rfl⟩ : ∃ rest, fuel = rest + 1 := ⟨fuel - 1, by omega⟩
  have complete := listPages_complete fits serves fuel 0 start ⟨rfl, rfl, rfl⟩ (by omega)
    (by omega)
  rw [appended, firstPages_zero] at complete
  exact complete

end

/-! ## A folder of two full pages -/

def numbered (count : Nat) : List FileItem :=
  (List.range count).map fun i =>
    ⟨[UInt8.ofNat i], [UInt8.ofNat i], 1, 0, 0, 0, true, 1, 1⟩

theorem numbered_length (count : Nat) : (numbered count).length = count := by
  rw [numbered, List.length_map, List.length_range]

/-- A reply is as many octets as its page has for a number. -/
def countingTransport : Transport := fun sent =>
  match sent.query.getLast? with
  | some (_, .itoa number) => .ok ⟨200, str "200 OK", [], List.replicate number.toNat 1⟩
  | _ => .error (str "bad request")

def countingLibrary (entries : List FileItem) : Library where
  respStatus := fun _ => ⟨200, 0, []⟩
  sortResp := fun raw => .ok ⟨page entries 100 raw.length, entries.length⟩
  unescapeString := fun name => name

theorem counting_serves (c : Client) (parentId : GoString) (entries : List FileItem) :
    Serves (countingLibrary entries) countingTransport c parentId entries := by
  intro number sent first _ query
  constructor
  refine ⟨⟨200, str "200 OK", [], List.replicate number 1⟩, ?_, by simp, by
    simp [countingLibrary], rfl, ?_, ?_⟩
  · rw [countingTransport, query, pageQuery, ← List.cons_append, ← List.cons_append,
      List.getLast?_append]
    rfl
  · intro none
    rw [List.replicate_eq_nil_iff] at none
    omega
  · simp only [countingLibrary, List.length_replicate]
    rfl

theorem twoFullPages_complete :
    ∃ next, Refreshed (New defaultConfig.cookie) next ∧
      list ⟨.bits64, fun _ => true⟩ (countingLibrary (numbered 200)) countingTransport 4
          (New defaultConfig.cookie) (str "0") =
        some (.ok (((numbered 200).filter (listed (New defaultConfig.cookie).cfg)).map
          (entryOf (countingLibrary (numbered 200)))), next) :=
  list_complete (by rw [numbered_length]; decide) (counting_serves _ _ (numbered 200))
    (by rw [numbered_length])

end RoundSync.Quarkcookie.Listing
