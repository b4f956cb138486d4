import RoundSync.Kernel.ServerSteps

/-!
# Runs of the server

Over a whole run of requests, with any failures of the drive, what nobody
addresses stays, what a lock covers stays, and a file that was uploaded is the
one that is downloaded.
-/

namespace RoundSync.Kernel

open RoundSync.Data
open RoundSync.Text
open RoundSync.Tree
open RoundSync.Transition
open Effect

/-! ## Runs -/

theorem serverRun_confined (dav : DavSite) (bound : Nat) {s : Server} (coherent : Coherent s.world)
    (requests : List HttpRequest) :
    Confined s.world.drive (run (dav.serverStep bound) s requests).world.drive
        (requests.flatMap dav.targets) (requests.flatMap dav.leftovers) ∧
      Coherent (run (dav.serverStep bound) s requests).world := by
  induction requests generalizing s with
  | nil => exact ⟨Confined.of_eq rfl, coherent⟩
  | cons r requests ih =>
      have handled := serverStep_handled dav coherent bound r
      obtain ⟨rest, coherent'⟩ := ih handled.coherent
      refine ⟨Confined.trans ?_ (rest.mono_subset ?_ ?_), coherent'⟩
      · exact handled.confined.mono_subset (List.subset_append_left _ _) (List.subset_append_left _ _)
      · exact List.subset_append_right _ _
      · exact List.subset_append_right _ _

/-- Requests one after the other change the drive only at the places they
address, whatever calls fail, and the kept listings stay right. -/
theorem requests_confined (dav : DavSite) (bound : Nat) (w : Live) (locks : LockTable)
    (requests : List HttpRequest) :
    Confined w.world.drive (run (dav.serverStep bound) ⟨w.world, locks⟩ requests).world.drive
        (requests.flatMap dav.targets) (requests.flatMap dav.leftovers) ∧
      Coherent (run (dav.serverStep bound) ⟨w.world, locks⟩ requests).world :=
  serverRun_confined dav bound (s := ⟨w.world, locks⟩) w.coherent requests

/-- The request comes before the lock expires, does not name it, and does not
address anything above its root. -/
structure KeepsClear (dav : DavSite) (l : LockInfo) (r : HttpRequest) : Prop where
  unexpired : expired r.now l = false
  unnamed : l.token ∉ r.tokens
  notAbove : ∀ target ∈ dav.targets r, target <+: split l.path → target = split l.path

/-- A lock protects what it covers against all requests that keep clear of it,
in any order and number. -/
theorem lock_protects (dav : DavSite) (bound : Nat) (w : Live) (locks : LockTable) (l : LockInfo)
    (held : locks.lookup l.token = some l) (requests : List HttpRequest)
    (clear : ∀ r ∈ requests, KeepsClear dav l r) {place : List GoString} {node : Node}
    (found : w.world.drive.lookup place = some node) (covered : l.region.Holds place) :
    (run (dav.serverStep bound) ⟨w.world, locks⟩ requests).world.drive.lookup place = some node := by
  suffices general : ∀ s : Server, Coherent s.world → s.locks.lookup l.token = some l →
      s.world.drive.lookup place = some node →
      (run (dav.serverStep bound) s requests).world.drive.lookup place = some node from
    general ⟨w.world, locks⟩ w.coherent held found
  clear held found
  induction requests with
  | nil =>
      intro s _ _ found
      exact found
  | cons r requests ih =>
      intro s coherent held found
      have isClear := clear r List.mem_cons_self
      have withheld : Withheld s.locks r l := ⟨held, isClear.unexpired, isClear.unnamed⟩
      have handled := serverStep_handled dav coherent bound r
      apply ih (fun r member => clear r (List.mem_cons_of_mem _ member)) _ handled.coherent
        (handled.locks l withheld)
      rcases handled.guarded with same | isOpen
      · rw [same]
        exact found
      · apply handled.confined.keeps place node _ found
        intro target member above
        have uncovered := isOpen target member l withheld
        obtain ⟨rootBelow, different⟩ :=
          (Region.meets_subtree_iff uncovered).mp ⟨place, above, covered⟩
        exact different (isClear.notAbove target member rootBelow)

/-- Requests of one user, who has logged in. -/
def quietDav : DavSite where
  handler := ⟨str "/dav"⟩
  env := Env.calm
  formats := quietSite.formats
  unmarshal := fun _ => none
  extractOwnerXML := id
  writable := true
  Username := str "user"
  Password := str "secret"
  NoAuth := false
  linkHeader := []
  contentHost := fun _ data => ⟨200, [], data⟩

def davRequest (method urlPath : String) (data : GoString) : HttpRequest where
  method := str method
  urlPath := str urlPath
  host := []
  basicAuth := some (str "user", str "secret")
  header := []
  contentLength := data.length
  body := ⟨data, none⟩
  now := 0
  uuid := str "2"
  tokenOrder := List.dedup
  isOrder := fun _ => List.Perm.refl _

def deepLock : LockInfo :=
  newLock 0 (tokenScheme ++ str "1") (str "/f") [] false 0

/-- A locked file survives a removal and an upload that do not name its lock. -/
theorem locked_file_stays :
    ∃ valid node, (run (quietDav.serverStep 1)
        ⟨World.fresh (Drive.single (str "f") [1] valid),
          (create ∅ 0 (str "1") (str "/f") [] false 0).2⟩
        [davRequest "DELETE" "/dav/f" [], davRequest "PUT" "/dav/f" [2]]).world.drive.lookup [str "f"] =
      some node ∧ node.body = .file [1] := by
  refine ⟨by decide, _, lock_protects quietDav 1 (Live.fresh (Drive.single (str "f") [1] (by decide)))
    (create ∅ 0 (str "1") (str "/f") [] false 0).2 deepLock (by decide) _ ?_ rfl ?_, rfl⟩
  · simp only [List.forall_mem_cons]
    exact ⟨⟨by decide, by decide, by decide⟩, ⟨by decide, by decide, by decide⟩,
      fun _ absent => absurd absent List.not_mem_nil⟩
  · exact Region.holds_root _

/-! ## Uploads and downloads -/

/-- Errors are answered as errors. -/
theorem le_mapErr (e : DriveError) : 400 ≤ mapErr e := by
  induction e with
  | wrapped _ _ ih => exact ih
  | _ => simp [mapErr]

/-- The modification time that a request announces. -/
def HttpRequest.mtime (r : HttpRequest) : Int :=
  DavSite.HeaderUnixTime r (str "X-OC-Mtime") []

/-- The bytes that a PUT request uploads. -/
def DavSite.uploaded (dav : DavSite) (r : HttpRequest) : GoString :=
  payload dav.env r.body (DavSite.uploadSize r)

/-- The tag of a file with this content. -/
def DavSite.fileTag (dav : DavSite) (data : GoString) (modTime : Int) : GoString :=
  etag dav.formats ⟨0, [], data.length, modTime, modTime, false⟩

/-- The file at a place. -/
def HasFile (d : Drive) (place : List GoString) (data : GoString) (modTime : Int) : Prop :=
  ∃ id createTime, d.lookup place = some ⟨id, .file data, modTime, createTime⟩

/-- A whole content is what the host answers with when no range is asked for. -/
def ServesWhole (dav : DavSite) : Prop :=
  ∀ header data, header.values (str "Range") = [] →
    (dav.contentHost header data).status = 200 ∧ (dav.contentHost header data).content = data

section Answers

variable {dav : DavSite} {r : HttpRequest} {s s' : Server} {reqPath : GoString}

@[simp]
theorem Header.get_set (header : Header) (key value : GoString) :
    (header.set key value).get key = value := by
  simp [Header.get, Header.set, Header.values, Header.del]

theorem Header.get_set_of_ne {key other : GoString} (different : other ≠ key) (header : Header)
    (value : GoString) : (header.set key value).get other = header.get other := by
  have absent : ((key, value).1 = other) ↔ False := iff_false_intro different.symm
  have same : (header.del key).values other = header.values other := by
    simp only [Header.values, Header.del, List.filter_filter]
    congr 1
    apply List.filter_congr
    intro field _
    by_cases isOther : field.1 = other
    · simp [isOther, different]
    · simp [isOther]
  unfold Header.get
  rw [← same]
  simp [Header.set, Header.values, different.symm]

theorem Header.get_setDefault_of_ne {key other : GoString} (different : other ≠ key)
    (header : Header) (value : GoString) :
    (DavSite.setDefault header key value).get other = header.get other := by
  unfold DavSite.setDefault
  split
  · exact Header.get_set_of_ne different header value
  · rfl

theorem etag_eq_fileTag {e : Entry} {data : GoString} {modTime : Int} (size : e.size = data.length)
    (time : e.modTime = modTime) : etag dav.formats e = dav.fileTag data modTime := by
  rw [DavSite.fileTag, etag, etag, size, time]

theorem handlePut_stores (coherent : Coherent s.world) :
    Ensures (dav.handlePut r reqPath) s
      (fun a s' => HasFile s'.world.drive (split reqPath) (dav.uploaded r) r.mtime ∧
        a.header.get (str "Etag") = dav.fileTag (dav.uploaded r) r.mtime)
      fun e _ => 400 ≤ e.status := by
  unfold DavSite.handlePut
  split
  · exact (by decide : 400 ≤ 405)
  · split
    · exact (by decide : 400 ≤ 405)
    · rw [ensures_bind, ensures_checkLocks]
      split
      · exact (by decide : 400 ≤ 412)
      · rw [ensures_bind, ensures_onFs]
        apply (put_confined coherent _ _ _ _ _).mono
        · rintro e w ⟨_, reported⟩
          obtain ⟨id, found⟩ := reported.file
          refine ⟨⟨id, _, found⟩, ?_⟩
          have tagEq : etag dav.formats e = dav.fileTag (dav.uploaded r) r.mtime :=
            etag_eq_fileTag reported.size reported.modTime
          simp [Header.get, Header.values, tagEq]
        · intro e _ _
          exact le_mapErr e

theorem handleDelete_removes (coherent : Coherent s.world) :
    Ensures (handleDelete dav.fs r.now (DavSite.shortRequest r .delete) reqPath) s
      (fun _ s' => ∀ below, split reqPath <+: below → s'.world.drive.lookup below = none)
      fun e _ => 400 ≤ e.status := by
  unfold handleDelete
  split
  · exact (by decide : 400 ≤ 405)
  · rw [ensures_bind, ensures_checkLocks]
    split
    · exact (by decide : 400 ≤ 412)
    · rw [ensures_bind, ensures_onFs]
      apply (remove_ensures coherent _).mono
      · rintro _ w ⟨_, _, removed⟩ below isBelow
        exact (removed.lookup below).trans (if_pos isBelow)
      · intro e _ _
        exact le_mapErr e

theorem handleGet_absent (coherent : Coherent s.world)
    (absent : s.world.drive.lookup (split reqPath) = none) :
    Ensures (dav.handleGetHeadPost r reqPath) s (fun _ _ => False) fun e _ => 400 ≤ e.status := by
  unfold DavSite.handleGetHeadPost
  rw [ensures_bind, ensures_onFs]
  apply (stat_ensures coherent _).mono
  · rintro e w ⟨_, node, shows⟩
    exact absurd (absent.symm.trans shows.found) nofun
  · intro e _ _
    exact le_mapErr e

theorem values_add (header : Header) (key : GoString) (values : List GoString) (other : GoString) :
    (header.add key values).values other =
      header.values other ++ if key = other then values else [] := by
  unfold Header.add Header.values
  rw [List.filter_append, List.map_append]
  congr 1
  rw [List.filter_map, List.map_map]
  by_cases same : key = other
  · simp [same, Function.comp_def]
  · simp [same, Function.comp_def]

theorem outHeader_range (noRange : r.header.values (str "Range") = [])
    (plainLink : dav.linkHeader.values (str "Range") = []) :
    (dav.outHeader r.header).values (str "Range") = [] := by
  have step : ∀ (out : Header) (k : GoString), out.values (str "Range") = [] →
      (if out.get k = [] then out.add k (r.header.values k) else out).values (str "Range") = [] := by
    intro out k absent
    split
    · rw [values_add, absent]
      split
      · rename_i isRange
        rw [isRange, noRange]
        rfl
      · rfl
    · exact absent
  unfold DavSite.outHeader
  exact step _ _ (step _ _ (step _ _ plainLink))

theorem download_ensures {w : World} {p : List GoString} {node : Node} {data : GoString}
    {link : Link} (foundNode : w.drive.lookup p = some node)
    (isFile : node.body = .file data) (idEq : link.file = node.id) (header : Header) :
    Ensures (dav.download link header) w
      (fun a _ => a.1 = dav.contentHost header data ∧
        Arrives dav.env a.2 (dav.contentHost header data).content)
      fun e _ => Injected dav.env w e := by
  have downloads : w.drive.download link.file = .ok data := by
    rw [idEq]
    exact Drive.download_eq foundNode isFile
  apply ensures_readCall
  · intro message failing
    exact ⟨w.reads, message, Nat.le_refl _, failing, rfl⟩
  · intro _ a answer
    rw [downloads] at answer
    cases breaks : dav.env.bodyBreaks w.changes w.reads with
    | none =>
        rw [breaks] at answer
        cases answer
        exact ⟨rfl, List.prefix_refl _, fun _ => rfl, fun _ => rfl⟩
    | some early =>
        rw [breaks] at answer
        cases answer
        refine ⟨rfl, List.take_prefix _ _, ?_, ?_⟩
        · intro impossible
          contradiction
        · intro reliable
          rw [reliable.bodies] at breaks
          contradiction
  · intro _ e answer
    rw [downloads] at answer
    contradiction

/-- What `Stat` finds below the root is the listed entry. -/
theorem stat_entry {env : Env} {w : World} {front : List GoString} {name : GoString}
    (coherent : Coherent w) :
    Ensures (stat env (front ++ [name])) w
      (fun e _ => ∃ node, w.drive.lookup (front ++ [name]) = some node ∧ e = node.entry name)
      fun _ _ => True := by
  rw [stat, List.reverse_append, List.reverse_singleton, List.singleton_append, statRev]
  apply (stat_ensures coherent front).bind
  · rintro parent w₁ ⟨quiet, node, shows⟩
    split
    · trivial
    · rename_i isDir
      have isFolder : node.isDir = true := by
        rw [← shows.isDir]
        simpa using isDir
      rw [shows.id]
      apply (listByID_ensures quiet.coherent (quiet.drive ▸ shows.found) isFolder).bind
      · rintro items w₂ ⟨_, lists, _⟩
        rw [quiet.drive] at lists
        split
        · rename_i e foundEntry
          exact lists.find_some foundEntry
        · trivial
      · intro _ _ _
        trivial
  · intro _ _ _
    trivial

/-- `Stat` reports the times of a file. -/
theorem stat_file {env : Env} {w : World} {p : List GoString} {node : Node} {data : GoString}
    (coherent : Coherent w) (found : w.drive.lookup p = some node)
    (isFile : node.body = .file data) :
    Ensures (stat env p) w
      (fun e w' => Quiet w w' ∧ e.isDir = false ∧ e.size = data.length ∧ e.modTime = node.modTime)
      fun e w' => Quiet w w' ∧ Injected env w e := by
  rcases List.eq_nil_or_concat' p with rfl | ⟨front, name, rfl⟩
  · obtain ⟨other, foundOther, isFolder⟩ := w.drive.root_isFolder
    cases Option.some.inj (foundOther.symm.trans found)
    rw [Node.isDir_iff.mp isFolder] at isFile
    contradiction
  · apply ((stat_ensures coherent _).and (stat_entry coherent)).mono
    · rintro e w' ⟨⟨quiet, _⟩, other, foundOther, rfl⟩
      cases Option.some.inj (foundOther.symm.trans found)
      refine ⟨quiet, ?_, ?_, rfl⟩
      · simp [Node.entry, Node.isDir, isFile]
      · simp [Node.entry, Node.size, isFile]
    · rintro e w' ⟨⟨quiet, injected | absent⟩, _⟩
      · exact ⟨quiet, injected⟩
      · rw [found] at absent
        contradiction

/-- A file that is asked for without a range arrives, unless a call fails. -/
theorem handleGet_serves {data : GoString} {modTime : Int} (coherent : Coherent s.world)
    (isGet : r.method = str "GET") (whole : ServesWhole dav)
    (noRange : r.header.values (str "Range") = [])
    (plainLink : dav.linkHeader.values (str "Range") = [])
    (file : HasFile s.world.drive (split reqPath) data modTime) :
    Ensures (dav.handleGetHeadPost r reqPath) s
      (fun a _ => a.status = 200 ∧ a.header.get (str "Etag") = dav.fileTag data modTime ∧
        ∃ body, a.content = .bytes body ∧ Arrives dav.env body data)
      fun _ _ => ∃ reads message, dav.env.readFails s.world.changes reads = some message := by
  obtain ⟨id, createTime, found⟩ := file
  have notHead : r.method ≠ str "HEAD" := by
    rw [isGet]
    decide
  have missed : ∀ {e : DriveError} {w : World}, Quiet s.world w → Injected dav.env w e →
      ∃ reads message, dav.env.readFails s.world.changes reads = some message := by
    intro e w quiet injected
    obtain ⟨reads, message, _, failing, _⟩ := injected.of_quiet quiet
    exact ⟨reads, message, failing⟩
  unfold DavSite.handleGetHeadPost
  rw [ensures_bind, ensures_onFs]
  apply (stat_file coherent found rfl).mono
  · rintro fi w ⟨quiet, isFile, size, time⟩
    have foundNow := quiet.drive ▸ found
    dsimp only
    rw [if_neg (by simp [isFile]), if_neg notHead, ensures_bind, ensures_onFs]
    apply (link_ensures quiet.coherent _).mono
    · rintro ⟨link, e⟩ w' ⟨quiet', node', data', found', isFile, idEq⟩
      cases Option.some.inj (found'.symm.trans foundNow)
      cases isFile
      have foundLater := quiet'.drive ▸ foundNow
      dsimp only
      rw [ensures_bind, ensures_attempt, ensures_onFs]
      apply (download_ensures foundLater rfl idEq (dav.outHeader r.header)).mono
      · rintro ⟨upstream, body⟩ w'' ⟨answered, arrives⟩
        obtain ⟨statusEq, contentEq⟩ :=
          whole _ data (outHeader_range noRange plainLink)
        dsimp only at answered arrives
        subst answered
        rw [contentEq] at arrives
        refine ⟨statusEq, ?_, body, rfl, arrives⟩
        rw [Header.get_setDefault_of_ne (by decide), Header.get_setDefault_of_ne (by decide),
          Header.get_set]
        exact etag_eq_fileTag size time
      · intro e w'' injected
        exact missed (quiet.trans quiet') injected
    · rintro e w' ⟨_, injected | absent | isFolder⟩
      · exact missed quiet injected
      · rw [foundNow] at absent
        contradiction
      · obtain ⟨other, foundOther, otherFolder⟩ := isFolder
        cases Option.some.inj (foundOther.symm.trans foundNow)
        contradiction
  · rintro e w ⟨_, injected⟩
    exact missed (Quiet.refl coherent) injected

/-- What an admitted request is answered with, from what its handler ensures. -/
theorem serveHTTP_ensures {bound : Nat} {α : Type} {handler : Serve α} {answer : α → Option HttpAnswer}
    {Q : α → Server → Prop} {E : RequestError → Server → Prop}
    (admitted : dav.admitted r = some reqPath)
    (isHandler : dav.handle bound r reqPath = answer <$> handler) (ensures : Ensures handler s Q E) :
    (∃ a, (dav.ServeHTTP bound r s).1 = answer a ∧ Q a (dav.ServeHTTP bound r s).2) ∨
      ∃ e, (dav.ServeHTTP bound r s).1 = some ⟨e.status, [], .statusText⟩ ∧
        E e (dav.ServeHTTP bound r s).2 := by
  unfold DavSite.admitted at admitted
  split at admitted
  · contradiction
  · rename_i authorized
    have stripped : stripPrefix dav.handler r.urlPath = .ok reqPath := by
      cases result : stripPrefix dav.handler r.urlPath with
      | error e =>
          rw [result] at admitted
          contradiction
      | ok p =>
          rw [result] at admitted
          exact congrArg Except.ok (Option.some.inj admitted)
    have whole : Ensures (do
        let reqPath ← liftExcept (stripPrefix dav.handler r.urlPath)
        dav.handle bound r reqPath : Serve (Option HttpAnswer)) s
        (fun reply s' => ∃ a, reply = answer a ∧ Q a s') E := by
      rw [stripped]
      change Ensures (dav.handle bound r reqPath) s _ _
      rw [isHandler]
      apply ensures_bind.mpr
      exact ensures.mono (fun a _ holds => ⟨a, rfl, holds⟩) fun _ _ holds => holds
    unfold DavSite.ServeHTTP
    rw [if_neg authorized]
    unfold Ensures at whole
    split at whole
    · rename_i reply s' result
      rw [result]
      exact .inl whole
    · rename_i e s' result
      rw [result]
      exact .inr ⟨e, rfl, whole⟩

end Answers

/-- The request uploads a file to the path, and is answered with success. -/
structure Uploads (dav : DavSite) (bound : Nat) (s : Server) (r : HttpRequest) (p : GoString)
    (answer : HttpAnswer) : Prop where
  isPut : r.method = str "PUT"
  admitted : dav.admitted r = some p
  answered : (dav.ServeHTTP bound r s).1 = some answer
  created : answer.status = 201

theorem Uploads.stores {dav : DavSite} {bound : Nat} {s : Server} {r : HttpRequest} {p : GoString}
    {answer : HttpAnswer} (uploads : Uploads dav bound s r p answer) (coherent : Coherent s.world) :
    HasFile (dav.serverStep bound s r).world.drive (split p) (dav.uploaded r) r.mtime ∧
      answer.header.get (str "Etag") = dav.fileTag (dav.uploaded r) r.mtime := by
  have handled : dav.handle bound r p = some <$> dav.handlePut r p := by
    unfold DavSite.handle
    rw [uploads.isPut]
    rfl
  rcases serveHTTP_ensures uploads.admitted handled (handlePut_stores coherent) with
    ⟨stored, same, holds⟩ | ⟨e, same, refused⟩
  · cases Option.some.inj (same.symm.trans uploads.answered)
    exact holds
  · cases Option.some.inj (same.symm.trans uploads.answered)
    have created : e.status = 201 := uploads.created
    omega

/-- What was uploaded is downloaded, under the tag that the upload was answered
with, as long as no request addresses the file or something above it. -/
theorem download_after_upload (dav : DavSite) (whole : ServesWhole dav)
    (plainLink : dav.linkHeader.values (str "Range") = []) (bound : Nat) (w : Live)
    (locks : LockTable) (put get : HttpRequest) {p : GoString} {stored : HttpAnswer}
    (uploads : Uploads dav bound ⟨w.world, locks⟩ put p stored) (between : List HttpRequest)
    (elsewhere : ∀ r ∈ between, ∀ target ∈ dav.targets r, ¬target <+: split p)
    (isGet : get.method = str "GET") (getPath : dav.admitted get = some p)
    (noRange : get.header.values (str "Range") = []) :
    (∃ answer body,
      (dav.ServeHTTP bound get
        (run (dav.serverStep bound) ⟨w.world, locks⟩ (put :: between))).1 = some answer ∧
      answer.status = 200 ∧ answer.header.get (str "Etag") = stored.header.get (str "Etag") ∧
      answer.content = .bytes body ∧ Arrives dav.env body (dav.uploaded put)) ∨
    ∃ reads message, dav.env.readFails
      (run (dav.serverStep bound) ⟨w.world, locks⟩ (put :: between)).world.changes reads =
        some message := by
  obtain ⟨⟨id, createTime, found⟩, tagEq⟩ := uploads.stores w.coherent
  have handled := serverStep_handled dav w.coherent (s := ⟨w.world, locks⟩) bound put
  obtain ⟨confined, coherent⟩ := serverRun_confined dav bound handled.coherent between
  have file : HasFile (run (dav.serverStep bound) ⟨w.world, locks⟩ (put :: between)).world.drive
      (split p) (dav.uploaded put) put.mtime :=
    ⟨id, createTime, confined.keeps _ _ (List.forall_mem_flatMap.mpr elsewhere) found⟩
  have isHandler : dav.handle bound get p = some <$> dav.handleGetHeadPost get p := by
    unfold DavSite.handle
    rw [isGet]
    rfl
  have serves := handleGet_serves coherent isGet whole noRange plainLink file
  rw [← tagEq] at serves
  rcases serveHTTP_ensures getPath isHandler serves with
    ⟨answer, same, status, tag, body, content, arrives⟩ | ⟨_, _, failing⟩
  · exact .inl ⟨answer, body, same, status, tag, content, arrives⟩
  · exact .inr failing

/-- A file is downloaded as it was uploaded although another one is removed. -/
theorem upload_comes_back :
    ∃ answer body,
      (quietDav.ServeHTTP 1 (davRequest "GET" "/dav/f" [])
        (run (quietDav.serverStep 1) ⟨World.fresh Drive.empty, ∅⟩
          [davRequest "PUT" "/dav/f" [1, 2], davRequest "PUT" "/dav/g" [3],
            davRequest "DELETE" "/dav/g" []])).1 = some answer ∧
      answer.content = .bytes body ∧ Arrives Env.calm body [1, 2] := by
  have served := download_after_upload quietDav (fun _ _ _ => ⟨rfl, rfl⟩) rfl 1
    (Live.fresh Drive.empty) ∅ (davRequest "PUT" "/dav/f" [1, 2]) (davRequest "GET" "/dav/f" [])
    (p := str "/f") ⟨rfl, by decide, rfl, by decide⟩
    [davRequest "PUT" "/dav/g" [3], davRequest "DELETE" "/dav/g" []] (by decide) rfl (by decide) rfl
  rcases served with ⟨answer, body, same, _, _, content, arrives⟩ | ⟨_, _, failing⟩
  · exact ⟨answer, body, same, content, arrives⟩
  · contradiction

/-- What a request has removed is not found any more, and neither is what was below,
as long as no request addresses its place or something above it. -/
theorem gone_after_delete (dav : DavSite) (bound : Nat) (w : Live) (locks : LockTable)
    (delete get : HttpRequest) {p q : GoString} {removed : HttpAnswer}
    (isDelete : delete.method = str "DELETE") (deletePath : dav.admitted delete = some p)
    (answered : (dav.ServeHTTP bound delete ⟨w.world, locks⟩).1 = some removed)
    (succeeded : removed.status = 204) (between : List HttpRequest)
    (elsewhere : ∀ r ∈ between, ∀ root ∈ dav.targets r ++ dav.leftovers r, ¬root <+: split q)
    (below : split p <+: split q) (isGet : get.method = str "GET" ∨ get.method = str "HEAD")
    (getPath : dav.admitted get = some q) :
    ∃ answer, (dav.ServeHTTP bound get
        (run (dav.serverStep bound) ⟨w.world, locks⟩ (delete :: between))).1 = some answer ∧
      400 ≤ answer.status := by
  have deletes : dav.handle bound delete p = DavSite.answerStatus <$>
      handleDelete dav.fs delete.now (DavSite.shortRequest delete .delete) p := by
    unfold DavSite.handle
    rw [isDelete]
    rfl
  have gone : (dav.serverStep bound ⟨w.world, locks⟩ delete).world.drive.lookup (split q) = none := by
    rcases serveHTTP_ensures deletePath deletes
      (handleDelete_removes (s := ⟨w.world, locks⟩) w.coherent) with ⟨_, _, gone⟩ | ⟨e, same, refused⟩
    · exact gone (split q) below
    · cases Option.some.inj (same.symm.trans answered)
      have succeeded : e.status = 204 := succeeded
      omega
  have handled := serverStep_handled dav w.coherent (s := ⟨w.world, locks⟩) bound delete
  obtain ⟨confined, coherent⟩ := serverRun_confined dav bound handled.coherent between
  have absent : (run (dav.serverStep bound) ⟨w.world, locks⟩
      (delete :: between)).world.drive.lookup (split q) = none := by
    have outside : ∀ root ∈ between.flatMap dav.targets ++ between.flatMap dav.leftovers,
        ¬root <+: split q := by
      refine List.forall_mem_append.mpr ⟨?_, ?_⟩
      · exact List.forall_mem_flatMap.mpr fun r isBetween root member =>
          elsewhere r isBetween root (List.mem_append_left _ member)
      · exact List.forall_mem_flatMap.mpr fun r isBetween root member =>
          elsewhere r isBetween root (List.mem_append_right _ member)
    apply Option.eq_none_iff_forall_ne_some.mpr
    intro node found
    have before := confined.fresh (split q) node outside found
    rw [gone] at before
    contradiction
  have isHandler : dav.handle bound get q = some <$> dav.handleGetHeadPost get q := by
    unfold DavSite.handle
    rcases isGet with isGet | isHead
    · rw [isGet]
      rfl
    · rw [isHead]
      rfl
  rcases serveHTTP_ensures getPath isHandler (handleGet_absent coherent absent) with
    ⟨_, _, impossible⟩ | ⟨e, same, refused⟩
  · exact impossible.elim
  · exact ⟨_, same, refused⟩

/-- A file that was removed is not found, although another one has been uploaded. -/
theorem removed_file_gone :
    ∃ valid answer,
      (quietDav.ServeHTTP 1 (davRequest "GET" "/dav/f" [])
        (run (quietDav.serverStep 1) ⟨World.fresh (Drive.single (str "f") [1] valid), ∅⟩
          [davRequest "DELETE" "/dav/f" [], davRequest "PUT" "/dav/g" [2]])).1 = some answer ∧
      400 ≤ answer.status := by
  refine ⟨by decide, gone_after_delete quietDav 1
    (Live.fresh (Drive.single (str "f") [1] (by decide))) ∅ (davRequest "DELETE" "/dav/f" [])
    (davRequest "GET" "/dav/f" []) (p := str "/f") (q := str "/f") rfl (by decide) rfl rfl
    [davRequest "PUT" "/dav/g" [2]] (by decide) (by decide) (.inl rfl) (by decide)⟩

end RoundSync.Kernel
