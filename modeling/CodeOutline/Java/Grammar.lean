import CodeOutline.Java.Rule

/-!
# The grammar of Java

The syntax of a Java source file, as rules over tokens. It is a grammar of form alone: modifiers come
in any order and number, a method of an interface may have a body, and the top level takes statements
as well as declarations.

A keyword is a keyword only where the grammar has a use for it; elsewhere it is a name like any other.
The lists below name the words that a rule must not take for a name, because at that point they begin
something else.
-/

namespace CodeOutline.Java

/-- The names of the rules. -/
inductive Phrase where
  | program | topLevel
  -- declarations
  | packageDeclaration | importDeclaration | moduleDeclaration | moduleDirective
  | typeDeclaration | classDeclaration | interfaceDeclaration | enumDeclaration
  | recordDeclaration | annotationDeclaration
  | modifiers | annotationUse | annotationArguments | elementValue | qualifiedName
  | typeParameters | superclass | implemented | permitted | thrown
  | classBody | interfaceBody | enumBody | annotationBody
  | classMember | interfaceMember | annotationMember | enumConstant
  | method | field | constant | annotationElement | constructor | constructorBody
  | constructorCall | compactConstructor
  | parameters | parameter | receiver | declarator | declaratorId | initializer | arrayInitializer
  -- types
  | type | plainType (except : List String) | classType (except : List String) | valueType | genericType
  | typeArguments | typeArgument | dimensions
  -- statements
  | statement | block | condition | localVariable | labeled | expressionStatement
  | ifStatement | whileStatement | doStatement | forStatement | tryStatement | catchClause
  | finallyClause | resource | throwStatement | jumpStatement
  -- switches
  | switchExpression | switchBody | switchRule | switchGroup | switchLabel
  | pattern | recordPattern | recordComponent
  -- expressions; `arrow` tells whether a lambda expression may begin here
  | expression (arrow : Bool) | operand (arrow : Bool) | tail (arrow : Bool)
  | lambda | lambdaBody | cast (arrow : Bool)
  | primary (arrow : Bool) | afterValue (arrow : Bool) | afterPlace (arrow : Bool)
  | selection (arrow : Bool) | reference | creation | arguments | textLiteral
  deriving Repr, DecidableEq

namespace Grammar

open Rule

/-- The words that are types by themselves. -/
def primitiveWords : List String :=
  ["byte", "short", "int", "long", "char", "float", "double", "boolean", "void"]

/-- The words that may begin a declaration before its type or keyword. -/
def modifierWords : List String :=
  ["public", "protected", "private", "abstract", "static", "final", "strictfp", "default",
    "synchronized", "native", "transient", "volatile", "sealed"]

/-- Words that begin a declaration inside the body of a class, an interface or an enum. -/
def memberWords : List String :=
  primitiveWords ++ modifierWords ++ ["class", "interface", "enum", "record"]

/-- Words that begin a member of an annotation type, which has no records. -/
def annotationMemberWords : List String :=
  primitiveWords ++ modifierWords ++ ["class", "interface", "enum"]

/-- Words that are no variable where an expression may stand. -/
def expressionWords : List String :=
  primitiveWords ++ ["true", "false", "null", "this", "super", "new", "switch", "instanceof"]

/-- Words that begin a statement of their own kind. -/
def statementWords : List String :=
  ["if", "while", "for", "assert", "do", "break", "continue", "return", "synchronized", "throw",
    "try", "class", "interface", "enum", "import", "package", "public", "protected", "private",
    "abstract", "static", "final", "strictfp", "default", "native", "transient", "volatile"]

/-- Words that are names or begin a declaration of a rare kind. -/
def softWords : List String := ["open", "module", "record", "with", "sealed"]

/-- Words that are no type at the beginning of a statement. -/
def localTypeWords : List String :=
  expressionWords ++ statementWords ++ softWords

/-- The assignment operators that are one token; those that begin with `>` are several. -/
def assignmentSymbols : List String :=
  ["=", "+=", "-=", "*=", "/=", "&=", "|=", "^=", "%=", "<<="]

/-- The operators between two operands that are one token; those that begin with `>` are several. -/
def binarySymbols : List String :=
  ["||", "&&", "|", "^", "&", "==", "!=", "<", "<=", "+", "-", "*", "/", "%", "<<"]

/-- A rule that refers to the phrases of Java. -/
abbrev R := Rule Phrase

/-- Any word, as a name. -/
def anyName : R := name []

/-- Any word, as the name of the declaration around it. -/
def declaredName : R := span .name anyName

/-- A part that ends the phrase with a semicolon. -/
def stop : R := symbol ";"

def braced (r : R) : R := symbol "\x7b" ++ r ++ symbol "\x7d"

def parenthesized (r : R) : R := symbol "(" ++ r ++ symbol ")"

/-- None or more, with the separator between each two. -/
def anySeparated (r : R) (separator : String) : R := opt (separated r separator)

def annotations : R := many (ref .annotationUse)

def anyType : R := ref (.plainType [])

def value : R := ref (.expression true)

/-- A symbol of two or three characters that begins with `>`, put together from its parts. -/
def greater (parts : List String) : R :=
  parts.foldl (fun r part => r ++ token (.joined part)) (symbol ">")

def assignment : R :=
  symbols assignmentSymbols ||| greater [">", ">", "="] ||| greater [">", "="]

/-- A binary operator other than an assignment. -/
def binaryOperator : R :=
  symbols binarySymbols ||| greater ["="] ||| greater [">", ">"] ||| greater [">"] ||| symbol ">"

/-- The part of a method reference after the type or the value. -/
def methodName : R :=
  symbol "::" ++ opt (ref .typeArguments) ++ name []

/-- A declaration of one kind of type. -/
def declaration (kind : Kind) (keyword : R) (header : R) (body : Phrase) : R :=
  node kind (opt (ref .modifiers) ++ keyword ++ declaredName ++ header ++ ref body)

/-- A statement that has a node of its own. -/
def statementOf (r : R) : R := node .other r

/-- A phrase with or without modifiers. Behind modifiers fewer words are keywords. -/
def modified (plain behind : R) : R :=
  (ref .modifiers ++ behind) ||| plain

/-- A list of variables of one type, given the phrase of their modifiers and type. -/
def declarators (kind : Kind) (type : R) : R :=
  node kind (type ++ separated (ref .declarator) "," ++ stop)

/-- A type that is no local declaration's beginning. -/
def localType : R :=
  modified (ref (.plainType localTypeWords)) (ref (.plainType memberWords))

/-- A method with a body or a semicolon, given its type with and without modifiers. -/
def methodOf (plain behind : R) : R :=
  let typed (type : R) : R := opt (ref .typeParameters ++ annotations) ++ type
  node .method (modified (typed plain) (typed behind) ++ declaredName ++ ref .parameters ++
    opt (ref .dimensions) ++ opt (ref .thrown) ++ (ref .block ||| stop))

/-- The rule of each name. -/
def rules : Phrase → Rule Phrase
  | .program => many (ref .topLevel) ++ token .finish
  | .topLevel =>
    ref .statement
    ||| methodOf (ref (.plainType localTypeWords)) (ref (.plainType memberWords))
  -- declarations
  | .packageDeclaration =>
    node .package (annotations ++ word "package" ++ span .name (ref .qualifiedName) ++ stop)
  | .importDeclaration =>
    node .other (word "import" ++ opt (word "static") ++ ref .qualifiedName ++
      opt (symbol "." ++ symbol "*") ++ stop)
  | .moduleDeclaration =>
    node .other (annotations ++ opt (word "open") ++ word "module" ++ ref .qualifiedName ++
      braced (many (ref .moduleDirective)))
  | .moduleDirective =>
    node .other (
      (word "requires" ++ many (words ["transitive", "static"]) ++ ref .qualifiedName ++ stop)
      ||| (words ["exports", "opens"] ++ ref .qualifiedName ++
            opt (word "to" ++ separated (ref .qualifiedName) ",") ++ stop)
      ||| (word "uses" ++ ref .qualifiedName ++ stop)
      ||| (word "provides" ++ ref .qualifiedName ++ word "with" ++
            separated (ref .qualifiedName) "," ++ stop))
  | .typeDeclaration =>
    ref .classDeclaration ||| ref .interfaceDeclaration ||| ref .enumDeclaration
    ||| ref .recordDeclaration ||| ref .annotationDeclaration
  | .classDeclaration =>
    declaration .classDecl (word "class") (opt (ref .typeParameters) ++
      opt (ref .superclass) ++ opt (ref .implemented) ++ opt (ref .permitted))
      .classBody
  | .interfaceDeclaration =>
    declaration .interfaceDecl (word "interface") (opt (ref .typeParameters) ++
      opt (node .other (word "extends" ++ separated (ref .type) ",")) ++
      opt (ref .permitted)) .interfaceBody
  | .enumDeclaration =>
    declaration .enumDecl (word "enum") (opt (ref .implemented)) .enumBody
  | .recordDeclaration =>
    declaration .recordDecl (word "record") (opt (ref .typeParameters) ++ ref .parameters ++
      opt (ref .implemented)) .classBody
  | .annotationDeclaration =>
    declaration .annotationDecl (symbol "@interface") nothing .annotationBody
  | .modifiers =>
    node .modifiers (many1 (ref .annotationUse ||| words modifierWords
      ||| (word "non" ++ token (.joined "-") ++ token (.joinedWord "sealed"))))
  | .annotationUse =>
    node .annotationUse (symbol "@" ++ span .name (ref .qualifiedName) ++
      opt (ref .annotationArguments))
  | .annotationArguments =>
    parenthesized (separated (name expressionWords ++ symbol "=" ++ ref .elementValue) ","
      ||| ref .elementValue ||| nothing)
  | .elementValue =>
    ref .annotationUse
    ||| node .other (braced (anySeparated (ref .elementValue) "," ++ opt (symbol ",")))
    ||| value
  | .qualifiedName => anyName ++ many (symbol "." ++ anyName)
  | .typeParameters =>
    node .other (symbol "<" ++ separated (annotations ++ anyName ++
      opt (word "extends" ++ separated (ref .type) "&")) "," ++ symbol ">")
  | .superclass => node .other (word "extends" ++ ref .type)
  | .implemented => node .other (word "implements" ++ separated (ref .type) ",")
  | .permitted => node .other (word "permits" ++ separated (ref .type) ",")
  | .thrown => node .other (word "throws" ++ separated (ref .type) ",")
  | .classBody => node .body (braced (many (ref .classMember)))
  | .interfaceBody => node .body (braced (many (ref .interfaceMember)))
  | .enumBody =>
    node .body (braced (anySeparated (ref .enumConstant) "," ++ opt (symbol ",") ++
      opt (node .enumMembers (stop ++ many (ref .classMember)))))
  | .annotationBody => node .body (braced (many (ref .annotationMember)))
  | .classMember =>
    stop ||| ref .block ||| node .other (word "static" ++ ref .block) ||| ref .typeDeclaration
    ||| ref .method ||| ref .field ||| ref .constructor ||| ref .compactConstructor
  | .interfaceMember =>
    stop ||| ref .typeDeclaration ||| ref .method ||| ref .constant
  | .annotationMember =>
    stop ||| ref .annotationElement
    ||| declarators .constant (opt (ref .modifiers) ++ ref (.plainType annotationMemberWords))
    ||| ref .classDeclaration ||| ref .interfaceDeclaration ||| ref .enumDeclaration
    ||| ref .annotationDeclaration
  | .enumConstant =>
    node .enumConstant (opt (ref .modifiers) ++ span .name (name modifierWords) ++
      opt (ref .arguments) ++ opt (ref .classBody))
  | .method => methodOf (ref (.plainType memberWords)) (ref (.plainType memberWords))
  | .field => declarators .field (opt (ref .modifiers) ++ ref (.plainType memberWords))
  | .constant => declarators .constant (opt (ref .modifiers) ++ ref (.plainType memberWords))
  | .annotationElement =>
    node .annotationElement (opt (ref .modifiers) ++ ref (.plainType annotationMemberWords) ++
      declaredName ++ symbol "(" ++ symbol ")" ++ opt (ref .dimensions) ++
      opt (word "default" ++ ref .elementValue) ++ stop)
  | .constructor =>
    node .other (opt (ref .modifiers) ++ opt (ref .typeParameters) ++ name memberWords ++
      ref .parameters ++ opt (ref .thrown) ++ ref .constructorBody)
  | .constructorBody =>
    node .other (braced (opt (ref .constructorCall) ++ many (ref .statement)))
  | .constructorCall =>
    node .other (
      (opt (ref .typeArguments) ++ words ["this", "super"] ++ ref .arguments ++ stop)
      ||| (ref (.primary true) ++ symbol "." ++ opt (ref .typeArguments) ++ word "super" ++
            ref .arguments ++ stop))
  | .compactConstructor =>
    node .other (opt (ref .modifiers) ++ name memberWords ++ ref .block)
  | .parameters =>
    node .other (parenthesized
      ((ref .receiver ++ opt (symbol "," ++ anySeparated (ref .parameter) ","))
        ||| anySeparated (ref .parameter) ","))
  | .parameter =>
    node .other (opt (ref .modifiers) ++ anyType ++
      ((annotations ++ symbol "..." ++ annotations ++ ref .declarator) ||| ref .declaratorId))
  | .receiver =>
    node .other (annotations ++ anyType ++ many (anyName ++ symbol ".") ++ word "this")
  | .declarator =>
    node .declarator (declaredName ++ opt (ref .dimensions) ++
      opt (symbol "=" ++ ref .initializer))
  | .declaratorId => anyName ++ opt (ref .dimensions)
  | .initializer => ref .arrayInitializer ||| value
  | .arrayInitializer =>
    node .other (braced (anySeparated (ref .initializer) "," ++ opt (symbol ",")))
  -- types
  | .type => annotations ++ anyType
  | .plainType except =>
    (words primitiveWords ||| ref (.classType except)) ++ opt (ref .dimensions)
  | .classType except =>
    name except ++ opt (ref .typeArguments) ++
      many (symbol "." ++ annotations ++ anyName ++ opt (ref .typeArguments))
  | .valueType =>
    (words primitiveWords
      ||| (name (expressionWords ++ softWords) ++ opt (ref .typeArguments) ++
            many (symbol "." ++ annotations ++ name ["class"] ++ opt (ref .typeArguments)))) ++
      opt (ref .dimensions)
  | .genericType =>
    anyName ++ ((opt (ref .typeArguments) ++ symbol "." ++ annotations ++ ref .genericType)
      ||| ref .typeArguments)
  | .typeArguments => symbol "<" ++ anySeparated (ref .typeArgument) "," ++ symbol ">"
  | .typeArgument =>
    annotations ++ ((symbol "?" ++ opt (words ["extends", "super"] ++ ref .type)) ||| anyType)
  | .dimensions => many1 (annotations ++ symbol "[" ++ symbol "]")
  -- statements
  | .statement =>
    ref .block ||| stop ||| ref .ifStatement ||| ref .whileStatement ||| ref .doStatement
    ||| ref .forStatement ||| ref .tryStatement
    ||| statementOf (ref .switchExpression ++ opt (many1 (ref (.tail true)) ++ stop))
    ||| statementOf (word "synchronized" ++ ref .condition ++ ref .block)
    ||| ref .throwStatement ||| ref .jumpStatement
    ||| ref .packageDeclaration ||| ref .importDeclaration ||| ref .moduleDeclaration
    ||| ref .typeDeclaration ||| ref .localVariable
    ||| (avoiding statementWords ++ (ref .labeled ||| ref .expressionStatement))
  | .block => node .other (braced (many (ref .statement)))
  | .condition => node .other (parenthesized value)
  | .localVariable => declarators .other localType
  | .labeled =>
    statementOf (span .name (name ("yield" :: localTypeWords)) ++ symbol ":" ++ ref .statement)
  | .expressionStatement => statementOf (value ++ stop)
  | .ifStatement =>
    statementOf (word "if" ++ ref .condition ++ ref .statement ++
      opt (word "else" ++ ref .statement))
  | .whileStatement => statementOf (word "while" ++ ref .condition ++ ref .statement)
  | .doStatement =>
    statementOf (word "do" ++ ref .statement ++ word "while" ++ ref .condition ++ stop)
  | .forStatement =>
    statementOf (word "for" ++ symbol "(" ++
      ((localType ++ ref .declaratorId ++ symbol ":" ++ node .other value)
        ||| ((ref .localVariable ||| (anySeparated (node .other value) "," ++ stop)) ++
            opt (node .other value) ++ stop ++ anySeparated (node .other value) ",")) ++
      symbol ")" ++ ref .statement)
  | .tryStatement =>
    statementOf (word "try" ++
      ((parenthesized (separated (ref .resource) ";" ++ opt stop) ++ ref .block ++
          many (ref .catchClause) ++ opt (ref .finallyClause))
        ||| (ref .block ++ ((many1 (ref .catchClause) ++ opt (ref .finallyClause))
            ||| ref .finallyClause))))
  | .catchClause =>
    node .other (word "catch" ++ parenthesized (opt (ref .modifiers) ++
      separated anyType "|" ++ ref .declaratorId) ++ ref .block)
  | .finallyClause => node .other (word "finally" ++ ref .block)
  | .resource =>
    node .other ((localType ++ ref .declaratorId ++ symbol "=" ++ value) ||| ref (.primary true))
  | .throwStatement => statementOf (word "throw" ++ value ++ stop)
  | .jumpStatement =>
    statementOf ((words ["break", "continue"] ++ opt anyName ++ stop)
      ||| (word "return" ++ opt value ++ stop)
      ||| (word "yield" ++ value ++ stop)
      ||| (word "assert" ++ value ++ opt (symbol ":" ++ value) ++ stop))
  -- switches
  | .switchExpression => word "switch" ++ ref .condition ++ ref .switchBody
  | .switchBody =>
    node .other (braced (many (ref .switchRule)) ||| braced (many (ref .switchGroup)))
  | .switchRule =>
    node .other (ref .switchLabel ++ symbol "->" ++
      (ref .block ||| ref .throwStatement ||| ref .expressionStatement))
  | .switchGroup =>
    node .other (many1 (ref .switchLabel ++ symbol ":") ++
      many (avoiding ["case"] ++ ref .statement))
  | .switchLabel =>
    node .other (
      (word "case" ++ (ref .pattern ||| separated (ref (.expression false)) ",") ++
        opt (word "when" ++ ref (.expression false)))
      ||| word "default")
  | .pattern =>
    (ref (.plainType (expressionWords ++ softWords)) ++ name ["instanceof", "when"])
    ||| ref .recordPattern
  | .recordPattern =>
    (ref .genericType ||| anyName) ++ parenthesized (anySeparated (ref .recordComponent) ",")
  | .recordComponent => ref .recordPattern ||| (anyType ++ anyName) ||| word "_"
  -- expressions
  | .expression arrow => ref (.operand arrow) ++ many (ref (.tail arrow))
  | .tail arrow =>
    (binaryOperator ++ ref (.operand arrow))
    ||| (word "instanceof" ++ opt (word "final") ++
          (ref .recordPattern ||| (ref .type ++
            opt (name ["instanceof", "when"]))))
    ||| (symbol "?" ++ value ++ symbol ":" ++ ref (.expression arrow))
    ||| symbols ["++", "--"]
  | .operand arrow =>
    (if arrow then ref .lambda ||| ref (.cast arrow) else ref (.cast arrow))
    ||| (symbols ["+", "-", "!", "~", "++", "--"] ++ ref (.operand arrow))
    ||| ref .switchExpression
    ||| (ref (.primary arrow) ++ many (symbols ["++", "--"]))
  | .lambda =>
    (name expressionWords ++ symbol "->" ++ ref .lambdaBody)
    ||| (parenthesized (separated (name expressionWords) ",") ++ symbol "->" ++ ref .lambdaBody)
    ||| (ref .parameters ++ symbol "->" ++ ref .lambdaBody)
  | .lambdaBody => ref .block ||| value
  | .cast arrow => parenthesized (separated (ref .type) "&") ++ ref (.operand arrow)
  | .primary arrow =>
    (ref .reference ++ ref (.afterValue arrow))
    ||| (name expressionWords ++ ((ref .arguments ++ ref (.afterValue arrow))
          ||| ref (.afterPlace arrow)))
    ||| ((token (.literal .number) ||| token (.literal .character) ||| ref .textLiteral
            ||| words ["true", "false", "null", "this"] ||| parenthesized value
            ||| (word "new" ++ ref .creation)) ++ ref (.afterValue arrow))
    ||| (word "super" ++ ((methodName ++ ref (.afterValue arrow)) ||| ref (.selection arrow)))
  | .afterValue arrow =>
    ref (.selection arrow)
    ||| (symbol "[" ++ value ++ symbol "]" ++ ref (.afterPlace arrow))
    ||| (methodName ++ ref (.afterValue arrow))
    ||| nothing
  | .afterPlace arrow => (assignment ++ ref (.expression arrow)) ||| ref (.afterValue arrow)
  | .selection arrow =>
    symbol "." ++
      ((name ["new", "super", "class", "this"] ++
          ((ref .arguments ++ ref (.afterValue arrow)) ||| ref (.afterPlace arrow)))
        ||| (word "class" ++ ref (.afterValue arrow))
        ||| (word "this" ++ ref (.afterPlace arrow))
        ||| (word "new" ++ ref .creation ++ ref (.afterValue arrow))
        ||| (ref .textLiteral ++ ref (.afterValue arrow))
        ||| (ref .typeArguments ++ anyName ++ ref .arguments ++ ref (.afterValue arrow))
        ||| (word "super" ++ ref (.selection arrow)))
  | .reference =>
    (ref .valueType ++ (methodName ||| (symbol "." ++ word "class")))
    ||| (many1 (ref .annotationUse) ++ ref (.plainType memberWords) ++ methodName)
  | .creation =>
    annotations ++ opt (ref .typeArguments ++ annotations) ++
      (words primitiveWords ||| ref (.classType [])) ++
      ((ref .arguments ++ opt (ref .classBody))
        ||| (ref .dimensions ++ ref .arrayInitializer)
        ||| (many1 (annotations ++ symbol "[" ++ value ++ symbol "]") ++
              opt (ref .dimensions)))
  | .arguments => parenthesized (anySeparated (node .other value) ",")
  | .textLiteral =>
    token (.literal .text)
    ||| (token (.literal .textOpen) ++ value ++ many (token (.literal .textMiddle) ++ value) ++
          token (.literal .textClose))

end Grammar

end CodeOutline.Java
