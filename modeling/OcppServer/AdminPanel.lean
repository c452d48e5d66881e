import OcppServer.JsValue
import OcppServer.Lib.HtmlTags
import OcppServer.Lib.JsLiteral

/-!
# The text of the admin page

`displaySystemInfo` puts the keys and values as they are into a template and hands the text to
`innerHTML`: each key and each value stands once between tags and once in a string literal of the
call in the `onclick` attribute.
-/

namespace OcppServer

namespace AdminPanel

/-- The template before the loop. -/
def sectionStart : JsString :=
  js "\n            <div class=\"admin-section\">\n" ++
  js "                <h2>System Configuration</h2>\n" ++
  js "                <div class=\"config-grid\">\n        "

/-! The template of the loop, up to the key, up to the value, and so on. -/

def itemStart : JsString :=
  js "\n                <div class=\"config-item\">\n                    <label>"

def afterLabel : JsString :=
  js ":</label>\n                    <span class=\"config-value\">"

def afterSpan : JsString := js "</span>\n                    <button onclick=\""

def callStart : JsString := js "adminPanel.editValue('"

def callComma : JsString := js "', '"

def itemEnd : JsString :=
  js "')\" \n                            class=\"btn btn-small\">Edit</button>\n" ++
  js "                </div>\n            "

/-- The template after the loop. -/
def sectionEnd : JsString :=
  js "\n                </div>\n            </div>\n" ++
  js "            <div class=\"admin-section\">\n" ++
  js "                <h2>System Commands</h2>\n" ++
  js "                <div class=\"command-panel\">\n" ++
  js "                    <button onclick=\"adminPanel.rebootSystem()\" " ++
  js "class=\"btn btn-warning\">Reboot System</button>\n" ++
  js "                    <button onclick=\"adminPanel.clearLogs()\" " ++
  js "class=\"btn btn-secondary\">Clear Logs</button>\n" ++
  js "                    <button onclick=\"adminPanel.exportConfig()\" " ++
  js "class=\"btn btn-primary\">Export Config</button>\n" ++
  js "                </div>\n            </div>\n        "

/-- What follows `onclick="`. -/
def onclickText (key value : JsString) : JsString :=
  callStart ++ (key ++ (callComma ++ (value ++ itemEnd)))

def item (key value : JsString) : JsString :=
  itemStart ++ (key ++ (afterLabel ++ (value ++ (afterSpan ++ onclickText key value))))

/-- The `html` of `displaySystemInfo`, for entries whose values are strings. -/
def html (values : List (JsString × JsString)) : JsString :=
  sectionStart ++ (values.flatMap (fun e => item e.1 e.2) ++ sectionEnd)

end AdminPanel

end OcppServer
