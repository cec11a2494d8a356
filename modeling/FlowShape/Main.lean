import FlowShape.Files.Analysis
import FlowShape.Tree.Listing
import Std.Time.DateTime.Timestamp

/-!
# Command line

Analyses the file that the first argument names, or a sample if there is none. The syntax tree of a
file is listed in a second file, whose name is the first one with `.tree` at its end. The report is
written to standard output as JSON, warnings and errors to standard error.
-/

namespace FlowShape.CommandLine

/-- Whether an error has a given number. Some errors carry the number negated. -/
def hasNumber (number code : UInt32) : Bool := code == number || code == 0 - number

/-- Why the system could not read a file. -/
def readFailure (error : IO.Error) : ReadFailure :=
  match error with
  | .noFileOrDirectory .. => .missing
  | .inappropriateType _ code _ => if hasNumber 21 code then .isDirectory else .throughFile
  | .invalidArgument _ code _ =>
    if hasNumber 36 code then .nameTooLong else .other (toString error)
  | _ => .other (toString error)

/-- Reads a file and the listing of its syntax tree. -/
def readFile (path : String) : IO (Except Error File) := do
  try
    let bytes ← IO.FS.readBinFile path
    let listing ← (IO.FS.readFile (path ++ ".tree")).toBaseIO
    return .ok ⟨bytes, listing.toOption.bind Node.ofListing?⟩
  catch error => return .error (.unreadable path (readFailure error))

/-- Analyses the file at a path. -/
def analysisOf (path : String) (now : Timestamp) : IO (Except Error Analysis) := do
  let file ← readFile path
  return do
    let (src, tree) ← (← file).source path
    Analysis.ofSource {} now src tree

/-! ## The sample -/

/-- The lines of a short file with one workflow, which is analysed when no file is given. -/
def sampleLines : List String :=
  ["",
   "import \x7b createWorkflow, allAsync, when \x7d from \"awaitly\";",
   "",
   "const checkout = createWorkflow(\x7b fetchUser, fetchCart, charge, notify \x7d);",
   "",
   "await checkout(async (step, deps) => \x7b",
   "  const user = await step(() => deps.fetchUser(userId), \x7b key: \"user\", name: \"Load user\" \x7d);",
   "",
   "  const [cart, prefs] = await step.parallel(\"Load context\", () =>",
   "    allAsync([deps.fetchCart(user.id), deps.fetchPrefs(user.id)])",
   "  );",
   "",
   "  for (const item of cart.items) \x7b",
   "    await step.retry(() => deps.reserve(item), \x7b attempts: 3, backoff: \"exponential\" \x7d);",
   "  \x7d",
   "",
   "  await when(prefs.notify, () => step(() => deps.notify(user)));",
   "  return step(() => deps.charge(cart));",
   "\x7d);",
   ""]

/-- The listing of its syntax tree. -/
def sampleRows : List String :=
  ["program 1 1 645 3", "import_statement 1 1 58 5", "import 0 1 7 0", "import_clause 1 8 42 1",
   "named_imports 1 8 42 7", "\x7b 0 8 9 0", "import_specifier 1 10 24 1",
   "identifier 1 10 24 0 name", ", 0 24 25 0", "import_specifier 1 26 34 1",
   "identifier 1 26 34 0 name", ", 0 34 35 0", "import_specifier 1 36 40 1",
   "identifier 1 36 40 0 name", "\x7d 0 41 42 0", "from 0 43 47 0", "string 1 48 57 3 source",
   "\" 0 48 49 0", "string_fragment 1 49 56 0", "\" 0 56 57 0", "; 0 57 58 0",
   "lexical_declaration 1 60 134 3", "const 0 60 65 0 kind", "variable_declarator 1 66 133 3",
   "identifier 1 66 74 0 name", "= 0 75 76 0", "call_expression 1 77 133 2 value",
   "identifier 1 77 91 0 function", "arguments 1 91 133 3 arguments", "( 0 91 92 0",
   "object 1 92 132 9", "\x7b 0 92 93 0", "shorthand_property_identifier 1 94 103 0",
   ", 0 103 104 0", "shorthand_property_identifier 1 105 114 0", ", 0 114 115 0",
   "shorthand_property_identifier 1 116 122 0", ", 0 122 123 0",
   "shorthand_property_identifier 1 124 130 0", "\x7d 0 131 132 0", ") 0 132 133 0",
   "; 0 133 134 0", "expression_statement 1 136 644 2", "await_expression 1 136 643 2",
   "await 0 136 141 0", "call_expression 1 142 643 2", "identifier 1 142 150 0 function",
   "arguments 1 150 643 3 arguments", "( 0 150 151 0", "arrow_function 1 151 642 4",
   "async 0 151 156 0", "formal_parameters 1 157 169 5 parameters", "( 0 157 158 0",
   "required_parameter 1 158 162 1", "identifier 1 158 162 0 pattern", ", 0 162 163 0",
   "required_parameter 1 164 168 1", "identifier 1 164 168 0 pattern", ") 0 168 169 0",
   "=> 0 170 172 0", "statement_block 1 173 642 7 body", "\x7b 0 173 174 0",
   "lexical_declaration 1 177 267 3", "const 0 177 182 0 kind", "variable_declarator 1 183 266 3",
   "identifier 1 183 187 0 name", "= 0 188 189 0", "await_expression 1 190 266 2 value",
   "await 0 190 195 0", "call_expression 1 196 266 2", "identifier 1 196 200 0 function",
   "arguments 1 200 266 5 arguments", "( 0 200 201 0", "arrow_function 1 201 229 3",
   "formal_parameters 1 201 203 2 parameters", "( 0 201 202 0", ") 0 202 203 0", "=> 0 204 206 0",
   "call_expression 1 207 229 2 body", "member_expression 1 207 221 3 function",
   "identifier 1 207 211 0 object", ". 0 211 212 0", "property_identifier 1 212 221 0 property",
   "arguments 1 221 229 3 arguments", "( 0 221 222 0", "identifier 1 222 228 0", ") 0 228 229 0",
   ", 0 229 230 0", "object 1 231 265 5", "\x7b 0 231 232 0", "pair 1 233 244 3",
   "property_identifier 1 233 236 0 key", ": 0 236 237 0", "string 1 238 244 3 value",
   "\" 0 238 239 0", "string_fragment 1 239 243 0", "\" 0 243 244 0", ", 0 244 245 0",
   "pair 1 246 263 3", "property_identifier 1 246 250 0 key", ": 0 250 251 0",
   "string 1 252 263 3 value", "\" 0 252 253 0", "string_fragment 1 253 262 0", "\" 0 262 263 0",
   "\x7d 0 264 265 0", ") 0 265 266 0", "; 0 266 267 0", "lexical_declaration 1 271 405 3",
   "const 0 271 276 0 kind", "variable_declarator 1 277 404 3", "array_pattern 1 277 290 5 name",
   "[ 0 277 278 0", "identifier 1 278 282 0", ", 0 282 283 0", "identifier 1 284 289 0",
   "] 0 289 290 0", "= 0 291 292 0", "await_expression 1 293 404 2 value", "await 0 293 298 0",
   "call_expression 1 299 404 2", "member_expression 1 299 312 3 function",
   "identifier 1 299 303 0 object", ". 0 303 304 0", "property_identifier 1 304 312 0 property",
   "arguments 1 312 404 5 arguments", "( 0 312 313 0", "string 1 313 327 3", "\" 0 313 314 0",
   "string_fragment 1 314 326 0", "\" 0 326 327 0", ", 0 327 328 0", "arrow_function 1 329 400 3",
   "formal_parameters 1 329 331 2 parameters", "( 0 329 330 0", ") 0 330 331 0", "=> 0 332 334 0",
   "call_expression 1 339 400 2 body", "identifier 1 339 347 0 function",
   "arguments 1 347 400 3 arguments", "( 0 347 348 0", "array 1 348 399 5", "[ 0 348 349 0",
   "call_expression 1 349 372 2", "member_expression 1 349 363 3 function",
   "identifier 1 349 353 0 object", ". 0 353 354 0", "property_identifier 1 354 363 0 property",
   "arguments 1 363 372 3 arguments", "( 0 363 364 0", "member_expression 1 364 371 3",
   "identifier 1 364 368 0 object", ". 0 368 369 0", "property_identifier 1 369 371 0 property",
   ") 0 371 372 0", ", 0 372 373 0", "call_expression 1 374 398 2",
   "member_expression 1 374 389 3 function", "identifier 1 374 378 0 object", ". 0 378 379 0",
   "property_identifier 1 379 389 0 property", "arguments 1 389 398 3 arguments", "( 0 389 390 0",
   "member_expression 1 390 397 3", "identifier 1 390 394 0 object", ". 0 394 395 0",
   "property_identifier 1 395 397 0 property", ") 0 397 398 0", "] 0 398 399 0", ") 0 399 400 0",
   ") 0 403 404 0", "; 0 404 405 0", "for_in_statement 1 409 534 8", "for 0 409 412 0",
   "( 0 413 414 0", "const 0 414 419 0 kind", "identifier 1 420 424 0 left",
   "of 0 425 427 0 operator", "member_expression 1 428 438 3 right",
   "identifier 1 428 432 0 object", ". 0 432 433 0", "property_identifier 1 433 438 0 property",
   ") 0 438 439 0", "statement_block 1 440 534 3 body", "\x7b 0 440 441 0",
   "expression_statement 1 446 530 2", "await_expression 1 446 529 2", "await 0 446 451 0",
   "call_expression 1 452 529 2", "member_expression 1 452 462 3 function",
   "identifier 1 452 456 0 object", ". 0 456 457 0", "property_identifier 1 457 462 0 property",
   "arguments 1 462 529 5 arguments", "( 0 462 463 0", "arrow_function 1 463 487 3",
   "formal_parameters 1 463 465 2 parameters", "( 0 463 464 0", ") 0 464 465 0", "=> 0 466 468 0",
   "call_expression 1 469 487 2 body", "member_expression 1 469 481 3 function",
   "identifier 1 469 473 0 object", ". 0 473 474 0", "property_identifier 1 474 481 0 property",
   "arguments 1 481 487 3 arguments", "( 0 481 482 0", "identifier 1 482 486 0", ") 0 486 487 0",
   ", 0 487 488 0", "object 1 489 528 5", "\x7b 0 489 490 0", "pair 1 491 502 3",
   "property_identifier 1 491 499 0 key", ": 0 499 500 0", "number 1 501 502 0 value",
   ", 0 502 503 0", "pair 1 504 526 3", "property_identifier 1 504 511 0 key", ": 0 511 512 0",
   "string 1 513 526 3 value", "\" 0 513 514 0", "string_fragment 1 514 525 0", "\" 0 525 526 0",
   "\x7d 0 527 528 0", ") 0 528 529 0", "; 0 529 530 0", "\x7d 0 533 534 0",
   "expression_statement 1 538 600 2", "await_expression 1 538 599 2", "await 0 538 543 0",
   "call_expression 1 544 599 2", "identifier 1 544 548 0 function",
   "arguments 1 548 599 5 arguments", "( 0 548 549 0", "member_expression 1 549 561 3",
   "identifier 1 549 554 0 object", ". 0 554 555 0", "property_identifier 1 555 561 0 property",
   ", 0 561 562 0", "arrow_function 1 563 598 3", "formal_parameters 1 563 565 2 parameters",
   "( 0 563 564 0", ") 0 564 565 0", "=> 0 566 568 0", "call_expression 1 569 598 2 body",
   "identifier 1 569 573 0 function", "arguments 1 573 598 3 arguments", "( 0 573 574 0",
   "arrow_function 1 574 597 3", "formal_parameters 1 574 576 2 parameters", "( 0 574 575 0",
   ") 0 575 576 0", "=> 0 577 579 0", "call_expression 1 580 597 2 body",
   "member_expression 1 580 591 3 function", "identifier 1 580 584 0 object", ". 0 584 585 0",
   "property_identifier 1 585 591 0 property", "arguments 1 591 597 3 arguments", "( 0 591 592 0",
   "identifier 1 592 596 0", ") 0 596 597 0", ") 0 597 598 0", ") 0 598 599 0", "; 0 599 600 0",
   "return_statement 1 603 640 3", "return 0 603 609 0", "call_expression 1 610 639 2",
   "identifier 1 610 614 0 function", "arguments 1 614 639 3 arguments", "( 0 614 615 0",
   "arrow_function 1 615 638 3", "formal_parameters 1 615 617 2 parameters", "( 0 615 616 0",
   ") 0 616 617 0", "=> 0 618 620 0", "call_expression 1 621 638 2 body",
   "member_expression 1 621 632 3 function", "identifier 1 621 625 0 object", ". 0 625 626 0",
   "property_identifier 1 626 632 0 property", "arguments 1 632 638 3 arguments", "( 0 632 633 0",
   "identifier 1 633 637 0", ") 0 637 638 0", ") 0 638 639 0", "; 0 639 640 0", "\x7d 0 641 642 0",
   ") 0 642 643 0", "; 0 643 644 0"]

def sampleAnalysis (now : Timestamp) : Except Error Analysis :=
  let path := "sample.ts"
  match Node.ofLines? (sampleRows.map String.toList) with
  | some tree =>
    Analysis.ofSource {} now (Source.ofString path ("\n".intercalate sampleLines)) tree
  | none => .error (.unparsed path)

/-! ## Reports -/

/-- Writes a report and tells the exit code. -/
def report : Except Error Analysis → IO UInt32
  | .ok analysis => do
    IO.eprint analysis.notices
    IO.println analysis.toJson.pretty
    return 0
  | .error error => do
    IO.eprintln error.message
    return 1

end FlowShape.CommandLine

open FlowShape CommandLine in
def main (arguments : List String) : IO UInt32 := do
  let now := Timestamp.ofNanoseconds
    (← Std.Time.Timestamp.now).toNanosecondsSinceUnixEpoch.toInt
  match arguments with
  | path :: _ => report (← analysisOf path now)
  | [] => report (sampleAnalysis now)
