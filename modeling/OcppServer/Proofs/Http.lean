import OcppServer.Http
import OcppServer.Lib.Paths

/-!
# What the HTTP service reads and answers

No path with two dots in a row is tried, so what follows `web/` in a path that is read has no
component that leads up (`serveStaticFile_inside`).

A client reads a response as lines up to an empty one and a body (`readReply`); of what
`sendHttpResponse` writes it gets the status, the four fields and the content back
(`readReply_written`). The answer is the true one exactly where no buffer is too large for the
memory, and the first file that can be read is not empty or, where there is none, a page is built
in (`answersTruly_iff`): the status handed over is 200 in every case, and an empty file is taken
for a missing one.
-/

namespace OcppServer

/-- A response as a client reads it. -/
structure HttpReply where
  statusLine : Bytes
  fields : List (Bytes × Bytes)
  body : Bytes

/-- The lines up to the empty one are a status line and fields; the rest is the body. -/
def readReply (bytes : Bytes) : Option HttpReply :=
  match Delimited.readBlock (lit "\r\n") bytes with
  | some (statusLine :: lines, body) =>
    (lines.mapM (Delimited.cutAt (lit ": "))).map fun fields => ⟨statusLine, fields, body⟩
  | _ => none

def HttpReply.field? (name : Bytes) (reply : HttpReply) : Option Bytes := reply.fields.lookup name

def statusLine (statusCode : ℤ) : Bytes :=
  lit "HTTP/1.1 " ++ decimal statusCode ++ lit " " ++ statusText statusCode

def replyFields (content mimeType : Bytes) : List (Bytes × Bytes) :=
  [(lit "Content-Type", mimeType), (lit "Content-Length", decimal content.length),
    (lit "Connection", lit "close"), (lit "Server", lit "cs-web-server")]

section Reply

theorem cr_notMem_statusLine (statusCode : ℤ) : (13 : UInt8) ∉ statusLine statusCode := by
  have htext : (13 : UInt8) ∉ statusText statusCode := by
    unfold statusText
    split_ifs <;> decide
  have hnum : (13 : UInt8) ∉ decimal statusCode := by
    intro h
    have := mem_decimal h
    simp at this
  simp only [statusLine, List.mem_append, not_or]
  exact ⟨⟨⟨by decide, hnum⟩, by decide⟩, htext⟩

/-- The bytes handed over are the lines with an empty one behind them, and the content. -/
theorem written_sendHttpResponse (content : Bytes) (statusCode : ℤ) (mimeType : Bytes)
    (call : HttpCall) :
    (sendHttpResponse content statusCode mimeType call).written = call.written ++
      [Delimited.writeLines (lit "\r\n") (statusLine statusCode ::
        (replyFields content mimeType).map fun field => field.1 ++ (lit ": " ++ field.2))
        ++ content] := by
  have htype : lit "Content-Type: " = lit "Content-Type" ++ lit ": " := by decide
  have hlen : lit "Content-Length: " = lit "Content-Length" ++ lit ": " := by decide
  have hconn : lit "Connection: close\r\n"
      = lit "Connection" ++ lit ": " ++ lit "close" ++ lit "\r\n" := by decide
  have hserver : lit "Server: cs-web-server\r\n"
      = lit "Server" ++ lit ": " ++ lit "cs-web-server" ++ lit "\r\n" := by decide
  simp only [sendHttpResponse, htype, hlen, hconn, hserver, Delimited.writeLines, replyFields,
    statusLine, List.map_cons, List.map_nil, List.flatMap_cons, List.flatMap_nil,
    List.append_assoc, List.append_nil]

/-- A client gets back what a response was made of. -/
theorem readReply_written (content : Bytes) (statusCode : ℤ) {mimeType : Bytes}
    (hmime : (13 : UInt8) ∉ mimeType) :
    readReply (Delimited.writeLines (lit "\r\n") (statusLine statusCode ::
        (replyFields content mimeType).map fun field => field.1 ++ (lit ": " ++ field.2))
        ++ content)
      = some ⟨statusLine statusCode, replyFields content mimeType, content⟩ := by
  have hcrlf : lit "\r\n" = 13 :: [10] := by decide
  have hcolon : lit ": " = 58 :: [32] := by decide
  have hnum : (13 : UInt8) ∉ decimal content.length := by
    intro h
    have := mem_decimal h
    simp at this
  have hlines : ∀ line ∈ statusLine statusCode ::
      (replyFields content mimeType).map (fun field => field.1 ++ (lit ": " ++ field.2)),
      line ≠ [] ∧ (13 : UInt8) ∉ line := by
    intro line hline
    rcases List.mem_cons.1 hline with rfl | hline
    · refine ⟨?_, cr_notMem_statusLine statusCode⟩
      simp [statusLine, decimal_ne_nil]
    · obtain ⟨field, hfield, rfl⟩ := List.mem_map.1 hline
      have hparts : (13 : UInt8) ∉ field.1 ∧ (13 : UInt8) ∉ field.2 := by
        simp only [replyFields, List.mem_cons, List.not_mem_nil, or_false] at hfield
        rcases hfield with rfl | rfl | rfl | rfl
        · exact ⟨show (13 : UInt8) ∉ lit "Content-Type" by decide, hmime⟩
        · exact ⟨show (13 : UInt8) ∉ lit "Content-Length" by decide, hnum⟩
        · decide
        · decide
      refine ⟨by simp [hcolon], ?_⟩
      simp only [List.mem_append, not_or]
      exact ⟨hparts.1, by decide, hparts.2⟩
  have hcut : ∀ field ∈ replyFields content mimeType,
      Delimited.cutAt (lit ": ") (field.1 ++ (lit ": " ++ field.2)) = some field := by
    intro field hfield
    have hname : (58 : UInt8) ∉ field.1 := by
      simp only [replyFields, List.mem_cons, List.not_mem_nil, or_false] at hfield
      rcases hfield with rfl | rfl | rfl | rfl
      · show (58 : UInt8) ∉ lit "Content-Type"
        decide
      · show (58 : UInt8) ∉ lit "Content-Length"
        decide
      · decide
      · decide
    have := Delimited.cutAt_append [32] field.2 hname
    rwa [← hcolon] at this
  have hblock := Delimited.readBlock_writeLines [10] content hlines
  rw [← hcrlf] at hblock
  rw [readReply, hblock]
  simp only [Delimited.mapM_map_of_forall hcut, Option.map_some]

end Reply

/-! ## The paths -/

theorem dots_eq : lit ".." = ['.'.toUInt8, '.'.toUInt8] := by decide

/-- Neither the base path nor the index file adds two dots. -/
theorem dots_infix_staticFilePath (uri : Bytes) :
    lit ".." <:+: staticFilePath uri ↔ lit ".." <:+: uri := by
  have hweb : lit ".." <:+: lit "web" ++ uri ↔ lit ".." <:+: uri := by
    rw [dots_eq, Paths.doubled_infix_append]
    have h1 : ¬ ['.'.toUInt8, '.'.toUInt8] <:+: lit "web" := by decide
    have h2 : ¬ ['.'.toUInt8] <:+ lit "web" := by decide
    simp only [h1, h2, false_and, false_or, or_false]
  simp only [staticFilePath]
  split
  · rw [← hweb, dots_eq, Paths.doubled_infix_append]
    have h1 : ¬ ['.'.toUInt8, '.'.toUInt8] <:+: lit "index.html" := by decide
    have h2 : ¬ ['.'.toUInt8] <+: lit "index.html" := by decide
    simp only [h1, h2, and_false, or_false]
  · exact hweb

theorem tryPaths_reads (disk : Disk) :
    ∀ (paths : List Bytes) {call : HttpCall} {path : Bytes},
      path ∈ (tryPaths disk paths call).2.reads → path ∈ call.reads ∨ path ∈ paths
  | [], _, _, h => Or.inl h
  | p :: paths, call, path, h => by
    have hread : ∀ {q : Bytes}, q ∈ (call.read p).reads → q ∈ call.reads ∨ q ∈ p :: paths := by
      intro q hq
      rcases List.mem_append.1 hq with hq | hq
      · exact Or.inl hq
      · exact Or.inr (by simp [List.mem_singleton.1 hq])
    rw [tryPaths] at h
    rcases hr : readFile disk p with _ | content
    · simp only [hr] at h
      exact hread h
    · simp only [hr] at h
      split at h
      · exact hread h
      · rcases tryPaths_reads disk paths h with h | h
        · exact hread h
        · exact Or.inr (List.mem_cons_of_mem _ h)

/-- What follows the base path in the path of a request is a path below it. -/
theorem staticFilePath_eq {uri : Bytes} (h : uri.head? = some '/'.toUInt8) :
    ∃ rest, staticFilePath uri = lit "web/" ++ rest := by
  rcases uri with _ | ⟨c, tail⟩
  · simp at h
  · obtain rfl : c = '/'.toUInt8 := by simpa using h
    have hweb : lit "web" ++ '/'.toUInt8 :: tail = lit "web/" ++ tail := by
      have : lit "web/" = lit "web" ++ ['/'.toUInt8] := by decide
      rw [this, List.append_assoc]
      rfl
    simp only [staticFilePath, hweb]
    split
    · exact ⟨tail ++ lit "index.html", List.append_assoc ..⟩
    · exact ⟨tail, rfl⟩

/-- Every path read is one of the prefixes, `web/` and a rest that stays below it. -/
theorem serveStaticFile_inside (disk : Disk) {uri : Bytes} (h : uri.head? = some '/'.toUInt8)
    {path : Bytes} (hp : path ∈ (serveStaticFile disk uri {}).2.reads) :
    ∃ pre ∈ pathPrefixes, ∃ rest, path = pre ++ (lit "web/" ++ rest)
      ∧ (Paths.resolve '/'.toUInt8 '.'.toUInt8 rest).isSome := by
  rw [serveStaticFile] at hp
  split at hp
  · simp at hp
  · next hdots =>
    have hmem : path ∈ pathsToTry (staticFilePath uri) := by
      rcases tryPaths_reads disk _ hp with hp | hp
      · simp at hp
      · exact hp
    obtain ⟨pre, hpre, rfl⟩ := List.mem_map.1 hmem
    obtain ⟨rest, hrest⟩ := staticFilePath_eq h
    refine ⟨pre, hpre, rest, by rw [hrest], Paths.isSome_resolve _ _ fun hin => hdots ?_⟩
    rw [hrest, dots_eq]
    exact hin.trans (List.infix_append_right)

theorem serveStaticFile_inside_dir :
    ∃ pre ∈ pathPrefixes, ∃ rest, lit "../web/a//./index.html" = pre ++ (lit "web/" ++ rest)
      ∧ (Paths.resolve '/'.toUInt8 '.'.toUInt8 rest).isSome :=
  @serveStaticFile_inside ⟨fun _ => none, 0⟩ (lit "/a//./") (by decide) _ (by decide)

/-! ## The answer -/

/-- The extension of the file a path names. -/
def extension? (path : Bytes) : Option Bytes :=
  Delimited.afterLast? '.'.toUInt8 ((Delimited.afterLast? '/'.toUInt8 path).getD path)

def contentTypeOf (path : Bytes) : Bytes :=
  ((extension? path).bind fun extension => mimeTypes.lookup (extension.map tolower)).getD
    (lit "text/plain")

/-- The bytes of the file a path names, if it names one. -/
def Disk.content? (disk : Disk) (path : Bytes) : Option Bytes :=
  match disk.entry? path with
  | some (.file content) => some content
  | _ => none

/-- The first of the paths that names a file, with its bytes. -/
def Disk.firstFile? (disk : Disk) (paths : List Bytes) : Option (Bytes × Bytes) :=
  paths.findSome? fun path => (disk.content? path).map (path, ·)

/-- The file a request asks for; none for a URI with two dots. -/
def Disk.requested? (disk : Disk) (uri : Bytes) : Option (Bytes × Bytes) :=
  if lit ".." <:+: uri then none else disk.firstFile? (pathsToTry (staticFilePath uri))

/-- A buffer for whatever the path names can be allocated. -/
def Disk.Fits (disk : Disk) (path : Bytes) : Prop :=
  ∀ entry, disk.entry? path = some entry → entry.size ≤ disk.room

/-- So it is for all paths up to the first that names a file. -/
def Disk.FitsUpTo (disk : Disk) : List Bytes → Prop
  | [] => True
  | path :: paths => disk.Fits path ∧ (disk.content? path = none → disk.FitsUpTo paths)

namespace WebServer

/-- The pages that need no file. -/
def builtIn? (now : ℤ) (uri : Bytes) (s : WebServer) : Option Bytes :=
  if uri = lit "/" ∨ uri = lit "/index.html" then some fallbackPage
  else if uri = lit "/api/status" then some (s.statusReport now)
  else none

/-- A reply that tells the truth about the file system. -/
def TrueReply (disk : Disk) (now : ℤ) (uri : Bytes) (s : WebServer) (reply : HttpReply) : Prop :=
  match disk.requested? uri with
  | some (path, content) =>
    reply.statusLine = lit "HTTP/1.1 200 OK" ∧ reply.body = content
      ∧ reply.field? (lit "Content-Type") = some (contentTypeOf path)
  | none =>
    match s.builtIn? now uri with
    | some body => reply.statusLine = lit "HTTP/1.1 200 OK" ∧ reply.body = body
    | none => reply.statusLine = lit "HTTP/1.1 404 Not Found"

/-- The callback hands over one response, with the length of its body, and it is the true one. -/
def AnswersTruly (disk : Disk) (now : ℤ) (uri : Bytes) (s : WebServer) : Prop :=
  ∃ bytes reply, (s.callbackHttp disk now uri).1 = some ()
    ∧ (s.callbackHttp disk now uri).2.written = [bytes] ∧ readReply bytes = some reply
    ∧ reply.field? (lit "Content-Length") = some (decimal reply.body.length)
    ∧ s.TrueReply disk now uri reply

/-- The first file asked for has bytes, or there is none and the page is built in. -/
def Answerable (disk : Disk) (uri : Bytes) : Prop :=
  disk.FitsUpTo (pathsToTry (staticFilePath uri)) ∧
    match disk.requested? uri with
    | some (_, content) => content ≠ []
    | none => uri = lit "/" ∨ uri = lit "/index.html" ∨ uri = lit "/api/status"

end WebServer

section Mime

theorem lookup_mimeTypes_of_slash {extension : Bytes} (h : '/'.toUInt8 ∈ extension) :
    mimeTypes.lookup (extension.map tolower) = none := by
  rw [List.lookup_eq_none_iff]
  intro entry hentry
  have hslash : '/'.toUInt8 ∈ extension.map tolower :=
    List.mem_map.2 ⟨'/'.toUInt8, h, by decide⟩
  have hnames : (mimeTypes.all fun e => '/'.toUInt8 ∉ e.1) = true := by decide
  have hname : '/'.toUInt8 ∉ entry.1 := by
    simpa using List.all_eq_true.1 hnames entry hentry
  simp only [bne_iff_ne, ne_eq]
  intro heq
  exact hname (heq ▸ hslash)

/-- The dot is searched in the whole path, but an extension with a slash has no entry. -/
theorem getMimeType_eq {path : Bytes} (h : '/'.toUInt8 ∈ path) :
    getMimeType path = contentTypeOf path := by
  obtain ⟨dir, name, rfl, hname⟩ := Delimited.exists_afterLast h
  have hslash := Delimited.afterLast?_append hname dir
  rw [getMimeType, contentTypeOf, extension?, hslash, Option.getD_some]
  by_cases hdot : '.'.toUInt8 ∈ name
  · obtain ⟨stem, extension, rfl, hext⟩ := Delimited.exists_afterLast hdot
    have hfull : dir ++ '/'.toUInt8 :: (stem ++ '.'.toUInt8 :: extension)
        = (dir ++ '/'.toUInt8 :: stem) ++ '.'.toUInt8 :: extension := by simp
    rw [hfull, Delimited.afterLast?_append hext, Delimited.afterLast?_append hext]
    rfl
  · rw [Delimited.afterLast?_eq_none hdot, Option.bind_none, Option.getD_none]
    rw [lookup_mimeTypes_of_slash, Option.getD_none]
    by_cases hdir : '.'.toUInt8 ∈ dir
    · obtain ⟨front, back, rfl, hback⟩ := Delimited.exists_afterLast hdir
      have hfull : front ++ '.'.toUInt8 :: back ++ '/'.toUInt8 :: name
          = front ++ '.'.toUInt8 :: (back ++ '/'.toUInt8 :: name) := by simp
      rw [hfull, Delimited.afterLast?_append]
      · simp
      · simp only [List.mem_append, List.mem_cons, not_or]
        exact ⟨hback, by decide, hdot⟩
    · rw [Delimited.afterLast?_eq_none]
      · simp
      · simp only [List.mem_append, List.mem_cons, not_or]
        exact ⟨hdir, by decide, hdot⟩

theorem cr_notMem_getMimeType (path : Bytes) : (13 : UInt8) ∉ getMimeType path := by
  have htypes : (mimeTypes.all fun e => (13 : UInt8) ∉ e.2) = true := by decide
  rw [getMimeType]
  rcases hl : mimeTypes.lookup
      (((Delimited.afterLast? '.'.toUInt8 path).getD path).map tolower) with _ | mimeType
  · rw [Option.getD_none]
    decide
  · obtain ⟨l₁, l₂, heq, -⟩ := List.lookup_eq_some_iff.1 hl
    have hmem : (((Delimited.afterLast? '.'.toUInt8 path).getD path).map tolower, mimeType)
        ∈ mimeTypes := by rw [heq]; simp
    simpa using List.all_eq_true.1 htypes _ hmem

end Mime

section Reading

variable {disk : Disk} {path : Bytes}

/-- Where the buffer fits, what is read is the file's bytes, and nothing where there is none. -/
theorem readFile_of_fits (h : disk.Fits path) :
    readFile disk path = some ((disk.content? path).getD []) := by
  unfold readFile Disk.content?
  rcases he : disk.entry? path with _ | entry
  · rfl
  · have hsize : ¬ disk.room < entry.size := by
      have := h entry he
      omega
    rcases entry with content | size
    · simp only [hsize, if_false]
      split
      · next hle =>
        have hnil : content = [] := by
          simpa [DiskEntry.size] using hle
        rw [hnil]
        rfl
      · rfl
    · simp only [hsize, if_false, ite_self]
      rfl

theorem readFile_of_not_fits (h : ¬ disk.Fits path) : readFile disk path = none := by
  simp only [Disk.Fits, not_forall] at h
  obtain ⟨entry, he, hlt⟩ := h
  simp only [readFile, he]
  rw [if_neg (by omega), if_pos (by omega)]

end Reading

section Trying

variable (disk : Disk)

/-- The bytes of a whole response. -/
def responseBytes (content : Bytes) (statusCode : ℤ) (mimeType : Bytes) : Bytes :=
  Delimited.writeLines (lit "\r\n") (statusLine statusCode ::
    (replyFields content mimeType).map fun field => field.1 ++ (lit ": " ++ field.2)) ++ content

theorem firstFile?_cons (path : Bytes) (paths : List Bytes) :
    disk.firstFile? (path :: paths)
      = ((disk.content? path).map (path, ·)).or (disk.firstFile? paths) := by
  rw [Disk.firstFile?, List.findSome?_cons]
  rcases disk.content? path with _ | content <;> rfl

/-- A buffer that does not fit ends the search. -/
theorem tryPaths_of_not_fits : ∀ (paths : List Bytes) (call : HttpCall),
    ¬ disk.FitsUpTo paths → (tryPaths disk paths call).1 = none
  | [], _, h => (h trivial).elim
  | path :: paths, call, h => by
    rw [tryPaths]
    by_cases hfits : disk.Fits path
    · simp only [Disk.FitsUpTo, hfits, true_and, Classical.not_imp] at h
      rw [readFile_of_fits hfits, h.1]
      simpa using tryPaths_of_not_fits paths (call.read path) h.2
    · rw [readFile_of_not_fits hfits]

/-- Without a file the search comes to its end. -/
theorem tryPaths_of_none : ∀ (paths : List Bytes) (call : HttpCall), disk.FitsUpTo paths →
    disk.firstFile? paths = none →
      (tryPaths disk paths call).1 = some false
        ∧ (tryPaths disk paths call).2.written = call.written
  | [], _, _, _ => ⟨rfl, rfl⟩
  | path :: paths, call, hfits, h => by
    rw [firstFile?_cons, Option.or_eq_none_iff, Option.map_eq_none_iff] at h
    rw [tryPaths, readFile_of_fits hfits.1, h.1]
    simpa using tryPaths_of_none paths (call.read path) (hfits.2 h.1) h.2

/-- The first file is sent if it has any bytes. -/
theorem tryPaths_of_some : ∀ (paths : List Bytes) (call : HttpCall) {path content : Bytes},
    disk.FitsUpTo paths → disk.firstFile? paths = some (path, content) → content ≠ [] →
      (tryPaths disk paths call).1 = some true
        ∧ (tryPaths disk paths call).2.written
          = call.written ++ [responseBytes content 200 (getMimeType path)]
  | p :: paths, call, path, content, hfits, h, hne => by
    rw [firstFile?_cons] at h
    rw [tryPaths, readFile_of_fits hfits.1]
    rcases hc : disk.content? p with _ | c
    · rw [hc, Option.map_none, Option.none_or] at h
      simpa using tryPaths_of_some paths (call.read p) (hfits.2 hc) h hne
    · rw [hc, Option.map_some, Option.some_or, Option.some.injEq, Prod.mk.injEq] at h
      obtain ⟨rfl, rfl⟩ := h
      simp only [Option.getD_some, if_pos hne, true_and]
      exact written_sendHttpResponse ..

/-- Whatever the search finds and sends has bytes. -/
theorem tryPaths_cases : ∀ (paths : List Bytes) (call : HttpCall),
    (tryPaths disk paths call).1 = none
      ∨ ((tryPaths disk paths call).1 = some false
        ∧ (tryPaths disk paths call).2.written = call.written)
      ∨ ((tryPaths disk paths call).1 = some true ∧ ∃ path content, content ≠ [] ∧
        (tryPaths disk paths call).2.written
          = call.written ++ [responseBytes content 200 (getMimeType path)])
  | [], _ => Or.inr (Or.inl ⟨rfl, rfl⟩)
  | p :: paths, call => by
    rw [tryPaths]
    rcases readFile disk p with _ | content
    · exact Or.inl rfl
    · by_cases hne : content ≠ []
      · simp only [if_pos hne]
        exact Or.inr (Or.inr ⟨trivial, p, content, hne, written_sendHttpResponse ..⟩)
      · simp only [if_neg hne]
        exact tryPaths_cases paths (call.read p)

end Trying

section Callback

variable (disk : Disk) (now : ℤ) (s : WebServer)

theorem lit_ne_nil {t : String} (h : t ≠ "") : lit t ≠ [] := by
  simpa [lit] using h

theorem fallbackPage_ne_nil : fallbackPage ≠ [] := by
  simp only [fallbackPage, List.append_assoc]
  exact List.append_ne_nil_of_left_ne_nil (lit_ne_nil (by decide)) _

theorem notFoundPage_ne_nil : notFoundPage ≠ [] := by
  simp only [notFoundPage, List.append_assoc]
  exact List.append_ne_nil_of_left_ne_nil (lit_ne_nil (by decide)) _

theorem statusReport_ne_nil : s.statusReport now ≠ [] := by
  simp only [WebServer.statusReport, List.append_assoc]
  exact List.append_ne_nil_of_left_ne_nil (lit_ne_nil (by decide)) _

/-- The page made up for a request writes nothing yet and has bytes. -/
theorem generateDefaultResponse_spec (uri : Bytes) (call : HttpCall) :
    (s.generateDefaultResponse disk now uri call).2.written = call.written
      ∧ ∀ page, (s.generateDefaultResponse disk now uri call).1 = some page → page ≠ [] := by
  have hpage : ∀ {content default : Bytes}, default ≠ [] →
      (if content ≠ [] then content else default) ≠ [] := by
    intro content default h
    split <;> assumption
  rw [WebServer.generateDefaultResponse]
  split_ifs
  · refine ⟨rfl, fun page h => ?_⟩
    obtain ⟨content, -, rfl⟩ := Option.map_eq_some_iff.1 h
    exact hpage fallbackPage_ne_nil
  · refine ⟨rfl, fun page h => ?_⟩
    obtain rfl := Option.some.inj h
    exact statusReport_ne_nil now s
  · refine ⟨rfl, fun page h => ?_⟩
    obtain ⟨content, -, rfl⟩ := Option.map_eq_some_iff.1 h
    exact hpage notFoundPage_ne_nil

/-- The callback ends in an exception, or writes one response, of status 200 and with bytes. -/
theorem callbackHttp_cases (uri : Bytes) :
    (s.callbackHttp disk now uri).1 = none
      ∨ ((s.callbackHttp disk now uri).1 = some () ∧ ∃ content mimeType, content ≠ []
        ∧ (13 : UInt8) ∉ mimeType
        ∧ (s.callbackHttp disk now uri).2.written = [responseBytes content 200 mimeType]) := by
  have hserve : (serveStaticFile disk (requestUri uri) {}).1 = none
      ∨ ((serveStaticFile disk (requestUri uri) {}).1 = some false
        ∧ (serveStaticFile disk (requestUri uri) {}).2.written = [])
      ∨ ((serveStaticFile disk (requestUri uri) {}).1 = some true ∧ ∃ path content, content ≠ [] ∧
        (serveStaticFile disk (requestUri uri) {}).2.written
          = [responseBytes content 200 (getMimeType path)]) := by
    rw [serveStaticFile]
    split
    · exact Or.inr (Or.inl ⟨rfl, rfl⟩)
    · exact tryPaths_cases disk _ {}
  rw [WebServer.callbackHttp]
  rcases hs : serveStaticFile disk (requestUri uri) {} with ⟨o, call⟩
  rw [hs] at hserve
  rcases hserve with h | ⟨h, hw⟩ | ⟨h, path, content, hne, hw⟩
  · obtain rfl : o = none := h
    exact Or.inl rfl
  · obtain rfl : o = some false := h
    obtain ⟨hdw, hpage⟩ := generateDefaultResponse_spec disk now s (requestUri uri) call
    dsimp only
    rcases hd : s.generateDefaultResponse disk now (requestUri uri) call with ⟨_ | page, call'⟩
    · exact Or.inl rfl
    · rw [hd] at hdw hpage
      refine Or.inr ⟨rfl, page, lit "text/html", hpage page rfl, by decide, ?_⟩
      rw [written_sendHttpResponse, hdw, hw]
      rfl
  · obtain rfl : o = some true := h
    exact Or.inr ⟨rfl, content, getMimeType path, hne, cr_notMem_getMimeType path, hw⟩

/-- What a client reads of a response of the server. -/
theorem readReply_responseBytes (content : Bytes) {mimeType : Bytes}
    (hmime : (13 : UInt8) ∉ mimeType) :
    readReply (responseBytes content 200 mimeType)
      = some ⟨lit "HTTP/1.1 200 OK", replyFields content mimeType, content⟩ := by
  have h200 : statusLine 200 = lit "HTTP/1.1 200 OK" := by decide
  rw [← h200]
  exact readReply_written content 200 hmime

theorem staticFilePath_requestUri (uri : Bytes) :
    staticFilePath (requestUri uri) = staticFilePath uri := by
  rw [requestUri]
  split
  · next h =>
    rw [h]
    decide
  · rfl

/-- The pages built in belong to URIs without two dots. -/
theorem not_dots_of_builtIn {uri : Bytes}
    (h : uri = lit "/" ∨ uri = lit "/index.html" ∨ uri = lit "/api/status") :
    ¬ lit ".." <:+: uri := by
  rcases h with rfl | rfl | rfl <;> decide

theorem builtIn?_eq_none {uri : Bytes}
    (h : ¬(uri = lit "/" ∨ uri = lit "/index.html" ∨ uri = lit "/api/status")) :
    s.builtIn? now uri = none := by
  rw [not_or, not_or] at h
  rw [WebServer.builtIn?, if_neg (not_or.2 ⟨h.1, h.2.1⟩), if_neg h.2.2]

/-- Without a file the page built in is generated. -/
theorem generateDefaultResponse_builtIn {uri : Bytes} (call : HttpCall)
    (h : uri = lit "/" ∨ uri = lit "/index.html" ∨ uri = lit "/api/status")
    (hread : readFile disk (staticFilePath uri) = some []) :
    (s.generateDefaultResponse disk now (requestUri uri) call).1 = s.builtIn? now uri := by
  have hindex : staticFilePath (lit "/") = lit "web/index.html"
      ∧ staticFilePath (lit "/index.html") = lit "web/index.html" := by decide
  have hroot : requestUri (lit "/") = lit "/index.html"
      ∧ requestUri (lit "/index.html") = lit "/index.html"
      ∧ requestUri (lit "/api/status") = lit "/api/status" := by decide
  rw [WebServer.generateDefaultResponse, WebServer.builtIn?]
  rcases h with rfl | rfl | rfl
  · rw [hindex.1] at hread
    simp [hroot.1, hread]
  · rw [hindex.2] at hread
    simp [hroot.2.1, hread]
  · have hne : ¬(lit "/api/status" = lit "/" ∨ lit "/api/status" = lit "/index.html") := by decide
    simp only [hroot.2.2, if_neg hne, if_true]

theorem requested?_of_no_dots {uri : Bytes} (h : ¬ lit ".." <:+: uri) :
    disk.requested? uri = disk.firstFile? (pathsToTry (staticFilePath uri)) := if_neg h

theorem serveStaticFile_of_no_dots {uri : Bytes} (h : ¬ lit ".." <:+: uri) :
    serveStaticFile disk (requestUri uri) {}
      = tryPaths disk (pathsToTry (staticFilePath uri)) {} := by
  rw [serveStaticFile, staticFilePath_requestUri, if_neg]
  rwa [dots_infix_staticFilePath]

/-- Where the reply is the true one, the request could be answered. -/
theorem answerable_of_trueReply {uri : Bytes} {reply : HttpReply}
    (hdone : (s.callbackHttp disk now uri).1 = some ())
    (hstatus : reply.statusLine = lit "HTTP/1.1 200 OK") (hbody : reply.body ≠ [])
    (htrue : s.TrueReply disk now uri reply) : WebServer.Answerable disk uri := by
  have h404 : lit "HTTP/1.1 200 OK" ≠ lit "HTTP/1.1 404 Not Found" := by decide
  have hpage : disk.requested? uri = none →
      uri = lit "/" ∨ uri = lit "/index.html" ∨ uri = lit "/api/status" := by
    intro hnone
    by_contra hno
    rw [WebServer.TrueReply, hnone, builtIn?_eq_none now s hno, hstatus] at htrue
    exact h404 htrue
  have hdots : ¬ lit ".." <:+: uri := by
    intro hdots
    exact not_dots_of_builtIn (hpage (if_pos hdots)) hdots
  refine ⟨?_, ?_⟩
  · by_contra hfits
    have hnone := tryPaths_of_not_fits disk _ {} hfits
    rw [← serveStaticFile_of_no_dots disk hdots] at hnone
    rw [WebServer.callbackHttp] at hdone
    rcases hs : serveStaticFile disk (requestUri uri) {} with ⟨_ | _, call⟩
    · simp [hs] at hdone
    · simp [hs] at hnone
  · rcases hreq : disk.requested? uri with _ | ⟨path, content⟩
    · exact hpage hreq
    · rw [WebServer.TrueReply, hreq] at htrue
      exact htrue.2.1 ▸ hbody

/-- A request that can be answered is answered with one response. -/
theorem callbackHttp_of_answerable {uri : Bytes} (h : WebServer.Answerable disk uri) :
    (s.callbackHttp disk now uri).1 = some () ∧ ∃ content mimeType, (13 : UInt8) ∉ mimeType
      ∧ (s.callbackHttp disk now uri).2.written = [responseBytes content 200 mimeType]
      ∧ match disk.requested? uri with
        | some (path, bytes) => content = bytes ∧ mimeType = getMimeType path
        | none => s.builtIn? now uri = some content := by
  obtain ⟨hfits, h⟩ := h
  have hdots : ¬ lit ".." <:+: uri := by
    intro hdots
    rw [show disk.requested? uri = none from if_pos hdots] at h
    exact not_dots_of_builtIn h hdots
  rw [WebServer.callbackHttp, serveStaticFile_of_no_dots disk hdots]
  rw [requested?_of_no_dots disk hdots] at h ⊢
  rcases hfirst : disk.firstFile? (pathsToTry (staticFilePath uri)) with _ | ⟨path, content⟩
  · rw [hfirst] at h
    obtain ⟨hdone, hwritten⟩ := tryPaths_of_none disk _ {} hfits hfirst
    rcases ht : tryPaths disk (pathsToTry (staticFilePath uri)) {} with ⟨o, call⟩
    rw [ht] at hdone hwritten
    obtain rfl : o = some false := hdone
    have hread : readFile disk (staticFilePath uri) = some [] := by
      have hnone : disk.content? (staticFilePath uri) = none := by
        rw [pathsToTry, pathPrefixes, List.map_cons, firstFile?_cons] at hfirst
        simpa using (Option.or_eq_none_iff.1 hfirst).1
      have hfit : disk.Fits (staticFilePath uri) := hfits.1
      rw [readFile_of_fits hfit, hnone]
      rfl
    have hpage := generateDefaultResponse_builtIn disk now s call h hread
    obtain ⟨page, hbuilt⟩ : ∃ page, s.builtIn? now uri = some page := by
      rw [WebServer.builtIn?]
      split_ifs with h1 h2
      · exact ⟨_, rfl⟩
      · exact ⟨_, rfl⟩
      · exact (h2 ((or_assoc.2 h).resolve_left h1)).elim
    obtain ⟨hdw, -⟩ := generateDefaultResponse_spec disk now s (requestUri uri) call
    dsimp only
    rcases hd : s.generateDefaultResponse disk now (requestUri uri) call with ⟨o, call'⟩
    rw [hd] at hpage hdw
    obtain rfl : o = some page := hpage.trans hbuilt
    refine ⟨rfl, page, lit "text/html", by decide, ?_, hbuilt⟩
    have hcall : call'.written = [] := hdw.trans hwritten
    exact (written_sendHttpResponse page 200 (lit "text/html") call').trans (by rw [hcall]; rfl)
  · rw [hfirst] at h
    obtain ⟨hdone, hwritten⟩ := tryPaths_of_some disk _ {} hfits hfirst h
    rcases ht : tryPaths disk (pathsToTry (staticFilePath uri)) {} with ⟨o, call⟩
    rw [ht] at hdone hwritten
    obtain rfl : o = some true := hdone
    exact ⟨rfl, content, getMimeType path, cr_notMem_getMimeType path, hwritten, rfl, rfl⟩

theorem slash_mem_of_firstFile {uri path content : Bytes} (huri : uri.head? = some '/'.toUInt8)
    (h : disk.firstFile? (pathsToTry (staticFilePath uri)) = some (path, content)) :
    '/'.toUInt8 ∈ path := by
  obtain ⟨p, hp, hfound⟩ := List.exists_of_findSome?_eq_some h
  obtain ⟨c, -, hc⟩ := Option.map_eq_some_iff.1 hfound
  obtain ⟨rfl, rfl⟩ := Prod.mk.inj hc
  obtain ⟨pre, -, rfl⟩ := List.mem_map.1 hp
  obtain ⟨rest, hrest⟩ := staticFilePath_eq huri
  have hweb : '/'.toUInt8 ∈ lit "web/" := by decide
  rw [hrest]
  exact List.mem_append_right _ (List.mem_append_left _ hweb)

theorem lookup_contentLength (content mimeType : Bytes) :
    (replyFields content mimeType).lookup (lit "Content-Length")
      = some (decimal content.length) := by
  have hne : (lit "Content-Length" == lit "Content-Type") = false := by decide
  rw [replyFields, List.lookup_cons, hne]
  simp

theorem answerable_of_answersTruly {uri : Bytes} (h : s.AnswersTruly disk now uri) :
    WebServer.Answerable disk uri := by
  obtain ⟨bytes, reply, hdone, hwritten, hread, -, htrue⟩ := h
  rcases callbackHttp_cases disk now s uri with hnone | ⟨-, content, mimeType, hne, hcr, hw⟩
  · rw [hnone] at hdone
    cases hdone
  · obtain rfl : responseBytes content 200 mimeType = bytes := by
      simpa using hw.symm.trans hwritten
    obtain rfl := Option.some.inj ((readReply_responseBytes content hcr).symm.trans hread)
    exact answerable_of_trueReply disk now s hdone rfl hne htrue

/-- The true answer is given exactly where nothing asked for is empty or too large, and a page is
built in where there is no file. -/
theorem answersTruly_iff {uri : Bytes} (huri : uri.head? = some '/'.toUInt8) :
    s.AnswersTruly disk now uri ↔ WebServer.Answerable disk uri := by
  refine ⟨answerable_of_answersTruly disk now s, fun h => ?_⟩
  obtain ⟨hdone, content, mimeType, hcr, hwritten, hcase⟩ :=
    callbackHttp_of_answerable disk now s h
  refine ⟨_, _, hdone, hwritten, readReply_responseBytes content hcr,
    lookup_contentLength content mimeType, ?_⟩
  rw [WebServer.TrueReply]
  rcases hreq : disk.requested? uri with _ | ⟨path, bytes⟩
  · rw [hreq] at hcase
    simp only [hcase, true_and]
  · rw [hreq] at hcase
    obtain ⟨rfl, rfl⟩ := hcase
    have hdots : ¬ lit ".." <:+: uri := by
      intro hdots
      rw [show disk.requested? uri = none from if_pos hdots] at hreq
      cases hreq
    rw [requested?_of_no_dots disk hdots] at hreq
    refine ⟨rfl, rfl, ?_⟩
    rw [← getMimeType_eq (slash_mem_of_firstFile disk huri hreq)]
    simp [HttpReply.field?, replyFields]

end Callback

/-- A disk with one file, found under the third of the prefixes. -/
def styleDisk : Disk where
  entry? path := if path = lit "../../web/style.css" then some (.file (lit "p\x7b\x7d")) else none
  room := 3

theorem style_answersTruly :
    styleDisk.requested? (lit "/style.css")
        = some (lit "../../web/style.css", lit "p\x7b\x7d")
      ∧ (WebServer.init 0).AnswersTruly styleDisk 0 (lit "/style.css") := by
  have hreq : styleDisk.requested? (lit "/style.css")
      = some (lit "../../web/style.css", lit "p\x7b\x7d") := by decide
  refine ⟨hreq, (answersTruly_iff styleDisk 0 (WebServer.init 0) (by decide)).2 ⟨?_, ?_⟩⟩
  · have hfits : ∀ path, styleDisk.Fits path := by
      intro path entry he
      simp only [styleDisk] at he
      split_ifs at he
      obtain rfl := Option.some.inj he
      decide
    simp [pathsToTry, pathPrefixes, Disk.FitsUpTo, hfits]
  · rw [hreq]
    decide

theorem missing_not_answersTruly :
    ¬ (WebServer.init 0).AnswersTruly ⟨fun _ => none, 0⟩ 0 (lit "/missing.html") := by
  intro h
  have hpage := (answerable_of_answersTruly _ _ _ h).2
  have hno : ¬(lit "/missing.html" = lit "/" ∨ lit "/missing.html" = lit "/index.html"
      ∨ lit "/missing.html" = lit "/api/status") := by decide
  exact hno hpage

end OcppServer
