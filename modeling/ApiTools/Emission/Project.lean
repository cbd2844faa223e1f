import ApiTools.Emission.Signature
import ApiTools.Number.Seconds
import ApiTools.Tool.Record

/-!
# Generated projects

A generated project is four files: the server, its package description, a page about it and a
list of files to ignore. Their texts are fixed but for the fields that the document, the catalog
and the settings fill in.
-/

namespace ApiTools

namespace Emission

/-- What the files of a project say. -/
structure Content where
  title : Text
  version : Text
  description : Text
  projectName : Text
  baseUrl : Text
  timeout : Seconds
  functions : List Function
deriving DecidableEq

/-- Lines, each with its end. -/
def lines (ls : List String) : Text := ls.flatMap fun l ↦ Text.ofString l ++ "\n"

/-- The start of the server: what it is and what it uses. -/
def serverHead (c : Content) : Text :=
  "\"\"\"" ++ c.title ++ " MCP server.\n\nGenerated by openapi-adapter from " ++ c.title
    ++ " (version " ++ c.version ++ ").\n\"\"\"\n\n" ++ lines [
      "import logging",
      "import os",
      "from typing import Any, Dict, Literal, Optional, Union",
      "",
      "import httpx",
      "from fastmcp import FastMCP",
      "",
      "from openapi_adapter.models import ToolDefinition",
      "from openapi_adapter.planner import plan",
      "",
      "logger = logging.getLogger(__name__)",
      ""]

/-- The configuration of the server. -/
def serverSettings (c : Content) : Text :=
  "SERVICE_URL = os.getenv(\"SERVICE_URL\", " ++ Literal.text c.baseUrl ++ ")\n"
    ++ "SERVICE_AUTHORIZATION = os.getenv(\"SERVICE_AUTHORIZATION\") or None\n"
    ++ "CLIENT_TIMEOUT_SECONDS = float(os.getenv(\"CLIENT_TIMEOUT_SECONDS\", "
    ++ Literal.text c.timeout.text ++ "))\n\n"
    ++ "mcp = FastMCP(" ++ Literal.text c.title ++ ")\n\n"

/-- One entry of the table of tools. -/
def definitionEntry (f : Function) : Text :=
  "\n    " ++ Literal.text f.tool.id ++ ": ToolDefinition.from_dict("
    ++ Literal.value f.tool.toRecord.lift ++ "),"

/-- The table of tools. -/
def definitions (c : Content) : Text :=
  "TOOL_DEFINITIONS: Dict[str, ToolDefinition] = \x7b" ++ c.functions.flatMap definitionEntry
    ++ "\n\x7d\n"

/-- The function that sends requests. -/
def callFunction : Text := lines [
  "",
  "",
  "async def call_api(tool: ToolDefinition, args: Dict[str, Any]) -> str:",
  "    if not SERVICE_URL:",
  "        return f\"Mock response for \x7btool.method\x7d \x7btool.path\x7d\\nParams: \x7bargs\x7d\"",
  "",
  "    request = plan(tool, args, SERVICE_URL, authorization=SERVICE_AUTHORIZATION)",
  "    logger.debug(\"Executing API request method=%s url=%s\", request.method, request.url)",
  "    async with httpx.AsyncClient(timeout=CLIENT_TIMEOUT_SECONDS) as client:",
  "        response = await client.request(",
  "            request.method,",
  "            request.url,",
  "            headers=request.headers,",
  "            content=request.body,",
  "        )",
  "    if response.status_code >= 400:",
  "        raise RuntimeError(f\"API returned error status: \x7bresponse.status_code\x7d - \x7bresponse.text\x7d\")",
  "    return response.text"]

/-- An argument in the head of its function. -/
def argumentLine (a : Argument) : Text :=
  let missing : Text := if a.required then [] else " = None"
  "\n    " ++ a.identifier ++ ": " ++ a.annotation ++ missing ++ ","

/-- The collection of an argument that is given. -/
def collectLines (a : Argument) : Text :=
  "\n    if " ++ a.identifier ++ " is not None:\n        _args[" ++ Literal.text a.name ++ "] = "
    ++ a.identifier

/-- The arguments in the order in which they are collected: the body last. -/
def collected (as : List Argument) : List Argument :=
  as.filter (!·.isBody) ++ as.filter (·.isBody)

/-- The function of a tool. -/
def toolFunction (f : Function) : Text :=
  "\n\n@mcp.tool(name=" ++ Literal.text f.tool.id ++ ")\nasync def " ++ f.name ++ "("
    ++ f.arguments.flatMap argumentLine ++ "\n) -> str:\n    " ++ Literal.text f.docstring
    ++ "\n    _args: Dict[str, Any] = \x7b\x7d" ++ (collected f.arguments).flatMap collectLines
    ++ "\n    return await call_api(TOOL_DEFINITIONS[" ++ Literal.text f.tool.id ++ "], _args)\n"

/-- The end of the server: how it is started. -/
def serverTail : Text := lines [
  "",
  "",
  "def main() -> None:",
  "    transport = os.getenv(\"MCP_TRANSPORT\", \"stdio\")",
  "    if transport == \"stdio\":",
  "        mcp.run()",
  "        return",
  "    mcp.run(",
  "        transport=transport,",
  "        host=os.getenv(\"HOST\", \"0.0.0.0\"),",
  "        port=int(os.getenv(\"PORT\", \"8000\")),",
  "    )",
  "",
  "",
  "if __name__ == \"__main__\":",
  "    main()"]

/-- The server. -/
def serverFile (c : Content) : Text :=
  serverHead c ++ serverSettings c ++ definitions c ++ callFunction
    ++ c.functions.flatMap toolFunction ++ serverTail

/-- A character of a quoted value, escaped beyond JSON where markup gives it a meaning. -/
def escapeMarkup (c : CodePoint) : Text :=
  if c = '<' ∨ c = '>' ∨ c = '&' ∨ c = '\'' then Json.numericEscape c else [c]

/-- A quoted value of the package description. -/
def quotedValue (t : Text) : Text := (Json.quote true t).flatMap escapeMarkup

/-- The package description. -/
def packageFile (c : Content) : Text :=
  lines [
    "[build-system]",
    "requires = [\"setuptools>=61.0\"]",
    "build-backend = \"setuptools.build_meta\"",
    "",
    "[project]"]
    ++ "name = \"" ++ c.projectName ++ "\"\n"
    ++ "version = " ++ quotedValue c.version ++ "\n"
    ++ "description = "
    ++ quotedValue ("MCP server generated from the " ++ c.title ++ " OpenAPI document") ++ "\n"
    ++ lines [
      "readme = \"README.md\"",
      "requires-python = \">=3.10\"",
      "dependencies = [",
      "    \"fastmcp\",",
      "    \"httpx\",",
      "    \"openapi-adapter\",",
      "]",
      "",
      "[project.scripts]"]
    ++ c.projectName.replace "_" "-" ++ "-mcp-server = \"mcp_server:main\"\n"
    ++ lines [
      "",
      "[tool.setuptools]",
      "package-dir = \x7b\"\" = \"src\"\x7d",
      "py-modules = [\"mcp_server\"]"]

/-- One line about a tool. -/
def toolLine (f : Function) : Text :=
  "\n- `" ++ f.tool.id ++ "`: " ++ f.tool.operation

/-- The part of the page that describes the service, if the document does. -/
def descriptionPart (c : Content) : Text :=
  if c.description = [] then [] else "\n## Description\n\n" ++ c.description ++ "\n"

/-- The page about the server. -/
def pageFile (c : Content) : Text :=
  "# " ++ c.title ++ " MCP Server\n\n"
    ++ "This is a generated Model Context Protocol (MCP) server for " ++ c.title ++ " (version "
    ++ c.version ++ ").\n" ++ descriptionPart c ++ lines [
      "",
      "## Installation",
      "",
      "```bash",
      "python -m venv .venv",
      "source .venv/bin/activate",
      "pip install -e .",
      "```",
      "",
      "## Running the Server",
      "",
      "```bash",
      "python src/mcp_server.py",
      "```",
      "",
      "## Configuration",
      ""]
    ++ "- `SERVICE_URL`: base URL of the upstream API (default: `" ++ c.baseUrl
    ++ "`). Without it, tools return mock responses.\n"
    ++ "- `SERVICE_AUTHORIZATION`: value sent as the `Authorization` header.\n"
    ++ "- `CLIENT_TIMEOUT_SECONDS`: upstream request timeout (default: " ++ c.timeout.text
    ++ ").\n" ++ lines [
      "- `MCP_TRANSPORT`: `stdio` (default), `http`, `streamable-http` or `sse`.",
      "- `HOST` / `PORT`: bind address for HTTP transports (default: `0.0.0.0:8000`).",
      "",
      "## Tools"]
    ++ c.functions.flatMap toolLine ++ "\n"

/-- The list of files to ignore. -/
def ignoreFile : Text := lines [
  "# Python",
  "__pycache__/",
  "*.py[cod]",
  "*.egg-info/",
  "build/",
  "dist/",
  "",
  "# Virtual environments",
  ".env",
  ".venv",
  "venv/",
  "",
  "# IDE",
  ".idea/",
  ".vscode/",
  "",
  "# OS",
  ".DS_Store",
  "",
  "# Logs",
  "*.log"]

/-- A URL that names its scheme. -/
def isAbsolute (url : Text) : Bool := url.startsWith "http://" || url.startsWith "https://"

/-- What a project for a document says. The base URL is the configured one, else the document's
if that is absolute. -/
def content (document : Document) (tools : List Tool) (baseUrl : Text) (timeout : Seconds) :
    Except ModelError Content := do
  return {
    title := document.info.title
    version := document.info.version
    description := document.info.description.getD []
    projectName := packageName document.info.title
    baseUrl := if baseUrl ≠ [] then baseUrl else (document.serverUrl.filter isAbsolute).getD []
    timeout := timeout
    functions := ← functions tools }

/-- The name of the directory of a project. -/
def directoryName (title : Text) : Text := packageName title ++ "_mcp_server"

/-- The files of a project, in the order in which they are written. -/
def files (c : Content) : Fields Text :=
  [("src/mcp_server.py", serverFile c), ("pyproject.toml", packageFile c),
    ("README.md", pageFile c), (".gitignore", ignoreFile)]

end Emission

end ApiTools
