/-!
The kinds of token. Words with a fixed meaning are keywords or built-in functions, signs are
symbols, and layout tokens stand for the shape of the lines rather than for any text. `Kind.name`
is the public name of a kind and `Kind.ofWord?` finds the kind of a reserved word written in lower
case.
-/

namespace Miaou

inductive Keyword where
  | miaou | meow
  | ecrire | demander
  | si | alors | sinon | sinonSi
  | repeter | fois | tantQue | pourChaque | dans | compteur
  | fonction | retour
  | liste | dictionnaire
  | essayer | sauf | erreur
  | importer
  | aleatoire
  | et | ou | non
  deriving DecidableEq, Repr

inductive Builtin where
  | minuscule | majuscule | longueur | remplacer | contient
  | sqrt | abs | round | floor | ceil
  | ouvrir | lire | fermer | attendre
  deriving DecidableEq, Repr

inductive Symbol where
  | plus | minus | star | slash | slashSlash | percent | starStar
  | assign | equal | notEqual | less | greater | lessEqual | greaterEqual
  | colon | comma | leftParen | rightParen | leftBracket | rightBracket | dot
  deriving DecidableEq, Repr

inductive Layout where
  | newline | indent | dedent | eof
  deriving DecidableEq, Repr

inductive Kind where
  | keyword (word : Keyword)
  | builtin (function : Builtin)
  | identifier
  | string
  | number
  | boolean
  | symbol (sign : Symbol)
  | layout (mark : Layout)
  deriving DecidableEq, Repr

def Keyword.name : Keyword → String
  | .miaou => "MIAOU"
  | .meow => "MEOW"
  | .ecrire => "ECRIRE"
  | .demander => "DEMANDER"
  | .si => "SI"
  | .alors => "ALORS"
  | .sinon => "SINON"
  | .sinonSi => "SINON_SI"
  | .repeter => "REPETER"
  | .fois => "FOIS"
  | .tantQue => "TANT_QUE"
  | .pourChaque => "POUR_CHAQUE"
  | .dans => "DANS"
  | .compteur => "COMPTEUR"
  | .fonction => "FONCTION"
  | .retour => "RETOUR"
  | .liste => "LISTE"
  | .dictionnaire => "DICTIONNAIRE"
  | .essayer => "ESSAYER"
  | .sauf => "SAUF"
  | .erreur => "ERREUR"
  | .importer => "IMPORTER"
  | .aleatoire => "ALEATOIRE"
  | .et => "ET"
  | .ou => "OU"
  | .non => "NON"

def Builtin.function : Builtin → String
  | .minuscule => "minuscule"
  | .majuscule => "majuscule"
  | .longueur => "longueur"
  | .remplacer => "remplacer"
  | .contient => "contient"
  | .sqrt => "sqrt"
  | .abs => "abs"
  | .round => "round"
  | .floor => "floor"
  | .ceil => "ceil"
  | .ouvrir => "ouvrir"
  | .lire => "lire"
  | .fermer => "fermer"
  | .attendre => "attendre"

def Builtin.name : Builtin → String
  | .minuscule => "MINUSCULE"
  | .majuscule => "MAJUSCULE"
  | .longueur => "LONGUEUR"
  | .remplacer => "REMPLACER"
  | .contient => "CONTIENT"
  | .sqrt => "SQRT"
  | .abs => "ABS"
  | .round => "ROUND"
  | .floor => "FLOOR"
  | .ceil => "CEIL"
  | .ouvrir => "OUVRIR"
  | .lire => "LIRE"
  | .fermer => "FERMER"
  | .attendre => "ATTENDRE"

def Symbol.name : Symbol → String
  | .plus => "PLUS"
  | .minus => "MINUS"
  | .star => "MULTIPLY"
  | .slash => "DIVIDE"
  | .slashSlash => "FLOOR_DIV"
  | .percent => "MODULO"
  | .starStar => "POWER"
  | .assign => "ASSIGN"
  | .equal => "EQUAL"
  | .notEqual => "NOT_EQUAL"
  | .less => "LESS_THAN"
  | .greater => "GREATER_THAN"
  | .lessEqual => "LESS_EQUAL"
  | .greaterEqual => "GREATER_EQUAL"
  | .colon => "COLON"
  | .comma => "COMMA"
  | .leftParen => "LPAREN"
  | .rightParen => "RPAREN"
  | .leftBracket => "LBRACKET"
  | .rightBracket => "RBRACKET"
  | .dot => "DOT"

def Symbol.text : Symbol → String
  | .plus => "+"
  | .minus => "-"
  | .star => "*"
  | .slash => "/"
  | .slashSlash => "//"
  | .percent => "%"
  | .starStar => "**"
  | .assign => "="
  | .equal => "=="
  | .notEqual => "!="
  | .less => "<"
  | .greater => ">"
  | .lessEqual => "<="
  | .greaterEqual => ">="
  | .colon => ":"
  | .comma => ","
  | .leftParen => "("
  | .rightParen => ")"
  | .leftBracket => "["
  | .rightBracket => "]"
  | .dot => "."

def Layout.name : Layout → String
  | .newline => "NEWLINE"
  | .indent => "INDENT"
  | .dedent => "DEDENT"
  | .eof => "EOF"

namespace Kind

def name : Kind → String
  | .keyword word => word.name
  | .builtin function => function.name
  | .identifier => "IDENTIFIER"
  | .string => "STRING"
  | .number => "NUMBER"
  | .boolean => "BOOLEAN"
  | .symbol sign => sign.name
  | .layout mark => mark.name

def isLayout : Kind → Bool
  | .layout _ => true
  | _ => false

def isBuiltin : Kind → Bool
  | .builtin _ => true
  | _ => false

/-- The reserved words. Each half of a compound keyword alone stands for the whole. -/
def reserved : List (String × Kind) :=
  [("miaou", .keyword .miaou), ("meow", .keyword .meow),
    ("ecrire", .keyword .ecrire), ("demander", .keyword .demander),
    ("si", .keyword .si), ("alors", .keyword .alors), ("sinon", .keyword .sinon),
    ("repeter", .keyword .repeter), ("fois", .keyword .fois),
    ("tant", .keyword .tantQue), ("que", .keyword .tantQue),
    ("pour", .keyword .pourChaque), ("chaque", .keyword .pourChaque),
    ("dans", .keyword .dans), ("compteur", .keyword .compteur),
    ("fonction", .keyword .fonction), ("retour", .keyword .retour),
    ("liste", .keyword .liste), ("dictionnaire", .keyword .dictionnaire),
    ("essayer", .keyword .essayer), ("sauf", .keyword .sauf), ("erreur", .keyword .erreur),
    ("importer", .keyword .importer), ("aleatoire", .keyword .aleatoire),
    ("minuscule", .builtin .minuscule), ("majuscule", .builtin .majuscule),
    ("longueur", .builtin .longueur), ("remplacer", .builtin .remplacer),
    ("contient", .builtin .contient), ("sqrt", .builtin .sqrt), ("abs", .builtin .abs),
    ("round", .builtin .round), ("floor", .builtin .floor), ("ceil", .builtin .ceil),
    ("ouvrir", .builtin .ouvrir), ("lire", .builtin .lire), ("fermer", .builtin .fermer),
    ("attendre", .builtin .attendre),
    ("vrai", .boolean), ("faux", .boolean),
    ("et", .keyword .et), ("ou", .keyword .ou), ("non", .keyword .non)]

def ofWord? (word : String) : Option Kind := reserved.lookup word

def all : List Kind :=
  [.keyword .miaou, .keyword .meow, .keyword .ecrire, .keyword .demander, .keyword .si,
    .keyword .alors, .keyword .sinon, .keyword .sinonSi, .keyword .repeter, .keyword .fois,
    .keyword .tantQue, .keyword .pourChaque, .keyword .dans, .keyword .compteur,
    .keyword .fonction, .keyword .retour, .keyword .liste, .keyword .dictionnaire,
    .keyword .essayer, .keyword .sauf, .keyword .erreur, .keyword .importer, .keyword .aleatoire,
    .keyword .et, .keyword .ou, .keyword .non,
    .builtin .minuscule, .builtin .majuscule, .builtin .longueur, .builtin .remplacer,
    .builtin .contient, .builtin .sqrt, .builtin .abs, .builtin .round, .builtin .floor,
    .builtin .ceil, .builtin .ouvrir, .builtin .lire, .builtin .fermer, .builtin .attendre,
    .identifier, .string, .number, .boolean,
    .symbol .plus, .symbol .minus, .symbol .star, .symbol .slash, .symbol .slashSlash,
    .symbol .percent, .symbol .starStar, .symbol .assign, .symbol .equal, .symbol .notEqual,
    .symbol .less, .symbol .greater, .symbol .lessEqual, .symbol .greaterEqual, .symbol .colon,
    .symbol .comma, .symbol .leftParen, .symbol .rightParen, .symbol .leftBracket,
    .symbol .rightBracket, .symbol .dot,
    .layout .newline, .layout .indent, .layout .dedent, .layout .eof]

def ofName? (name : String) : Option Kind := all.find? fun kind => kind.name = name

end Kind

end Miaou
